import ScriptBoundary.Calls.Delegate
import ScriptBoundary.Proofs.Conversions
import ScriptBoundary.Proofs.Stringifying

/-!
# Conversions that come to an end

A computation that follows values has an allowance for how deep it goes, and comes to an end if its
outcome is the same from some allowance on (`Run.Ends`). A conversion to a type follows a script
value as far as the type says, and further only where the type is JSON text, a class or anything.
So it ends for a value of a heap of arrays and plain objects if the type bounds it
(`Catalog.ends_of_bounded`), and for every type if the value leads to no cycle
(`Catalog.ends_of_acyclic`), as far as the host code that fills instances ends.
-/

namespace ScriptBoundary

open Run

namespace Run

variable {ε ε' α β : Type} {w : World}

/-- From some allowance on, the computation comes to one and the same outcome and state, and keeps
the heap. -/
def Ends (x : Nat → Run ε α) (w : World) : Prop :=
  ∃ (N : Nat) (r : Except ε α) (w' : World), (∀ n, N ≤ n → x n w = some (r, w')) ∧ w.Keeps w'

namespace Ends

theorem of_some {x : Nat → Run ε α} {r : Except ε α} {w' : World}
    (h : ∀ n, x n w = some (r, w')) (hkeeps : w.Keeps w') : Ends x w :=
  ⟨0, r, w', fun n _ => h n, hkeeps⟩

theorem pure (a : α) : Ends (fun _ => (Pure.pure a : Run ε α)) w :=
  of_some (fun _ => rfl) (Std.Refl.refl w)

theorem throw (e : ε) : Ends (fun _ => (MonadExcept.throw e : Run ε α)) w :=
  of_some (fun _ => rfl) (Std.Refl.refl w)

theorem ofExcept (x : Except ε α) : Ends (fun _ => (Run.ofExcept x : Run ε α)) w :=
  of_some (fun _ => rfl) (Std.Refl.refl w)

/-- What ends is decided from some allowance on. -/
theorem congr {x y : Nat → Run ε α} (hy : Ends y w) {N : Nat}
    (h : ∀ n, N ≤ n → x n w = y n w) : Ends x w := by
  obtain ⟨M, r, w', hr, hkeeps⟩ := hy
  refine ⟨max N M, r, w', fun n hn => ?_, hkeeps⟩
  rw [h n (by omega), hr n (by omega)]

theorem bind {x : Nat → Run ε α} {f : Nat → α → Run ε β} (hx : Ends x w)
    (hf : ∀ a w', w.Keeps w' → Ends (fun n => f n a) w') : Ends (fun n => x n >>= f n) w := by
  obtain ⟨N, r, w', hr, hkeeps⟩ := hx
  cases r with
  | error e => exact ⟨N, .error e, w', fun n hn => bind_error (hr n hn) _, hkeeps⟩
  | ok a =>
    obtain ⟨M, r', w'', hr', hkeeps'⟩ := hf a w' hkeeps
    refine ⟨max N M, r', w'', fun n hn => ?_, IsTrans.trans _ _ _ hkeeps hkeeps'⟩
    exact (bind_ok (hr n (by omega)) _).trans (hr' n (by omega))

theorem map {x : Nat → Run ε α} (hx : Ends x w) (f : α → β) : Ends (fun n => f <$> x n) w :=
  bind hx fun a _ _ => pure (f a)

theorem mapError {x : Nat → Run ε α} (hx : Ends x w) (f : ε → ε') :
    Ends (fun n => (x n).mapError f) w := by
  obtain ⟨N, r, w', hr, hkeeps⟩ := hx
  exact ⟨N, r.mapError f, w', fun n hn => mapError_some (hr n hn) f, hkeeps⟩

theorem mapM {x : Nat → α → Run ε β} {l : List α}
    (h : ∀ a ∈ l, ∀ w', w.Keeps w' → Ends (fun n => x n a) w') :
    Ends (fun n => l.mapM (x n)) w := by
  induction l generalizing w with
  | nil => exact pure []
  | cons a l ih =>
    simp only [List.mapM_cons]
    refine bind (h a List.mem_cons_self w (Std.Refl.refl w)) fun b w' hkeeps => ?_
    refine bind (ih fun c hc u hu => ?_) fun bs _ _ => pure (b :: bs)
    exact h c (List.mem_cons_of_mem _ hc) u (IsTrans.trans _ _ _ hkeeps hu)

theorem forM {x : Nat → α → Run ε Unit} {l : List α}
    (h : ∀ a ∈ l, ∀ w', w.Keeps w' → Ends (fun n => x n a) w') :
    Ends (fun n => l.forM (x n)) w := by
  induction l generalizing w with
  | nil => exact pure ()
  | cons a l ih =>
    refine bind (h a List.mem_cons_self w (Std.Refl.refl w)) fun _ w' hkeeps => ?_
    exact ih fun c hc u hu => h c (List.mem_cons_of_mem _ hc) u (IsTrans.trans _ _ _ hkeeps hu)

end Ends

end Run

/-! ## Heaps of arrays and plain objects -/

namespace Heap

/-- An array that is there, or a plain object that is there and holds data only, each under a name
of its own. -/
def IsPlain (h : Heap) : ScriptValue → Prop
  | .array a => a.index < h.arrays.size
  | .object o => o.index < h.objects.size ∧ (h.object o).target = none ∧
      (h.object o).prototypes = [] ∧ h.HoldsData o ∧ (h.ownKeys o).Nodup
  | _ => True

/-- All that a value leads to are arrays, plain objects and scalars. -/
def Plain (h : Heap) (s : ScriptValue) : Prop := ∀ x, h.Reaches s x → h.IsPlain x

variable {h h' : Heap} {s x : ScriptValue}

theorem Plain.here (hs : h.Plain s) : h.IsPlain s := hs s .refl

theorem Plain.of_holds (hs : h.Plain s) (hx : h.Holds s x) : h.Plain x :=
  fun y hy => hs y (.head hx hy)

theorem Plain.dataOnly (hs : h.Plain s) : h.DataOnly s := fun _ ho => (hs _ ho).2.2.2.1

theorem IsPlain.of_keeps (hk : h.Keeps (fun _ => True) h') (hx : h.IsPlain x) : h'.IsPlain x := by
  cases x with
  | array a => exact Nat.lt_of_lt_of_le hx hk.arrays_le
  | object o =>
    obtain ⟨hlt, hrest⟩ := hx
    refine ⟨Nat.lt_of_lt_of_le hlt hk.objects_le, ?_⟩
    rw [HoldsData, ownKeys, hk.object o trivial hlt]
    exact hrest
  | _ => trivial

/-- What is there holds nothing else in a heap that keeps it. -/
theorem Holds.of_keeps (hk : h.Keeps (fun _ => True) h') (hs : h.IsPlain s) (hx : h'.Holds s x) :
    h.Holds s x := by
  cases hx with
  | item mem =>
    rw [hk.items _ hs] at mem
    exact .item mem
  | field mem =>
    rw [hk.object _ trivial hs.1] at mem
    exact .field mem

/-- What is plain stays plain. -/
theorem Plain.of_keeps (hk : h.Keeps (fun _ => True) h') (hs : h.Plain s) : h'.Plain s := by
  have hreaches : ∀ x, h'.Reaches s x → h.Reaches s x := by
    intro x hx
    induction hx with
    | refl => exact .refl
    | tail _ hstep ih => exact ih.tail (hstep.of_keeps hk (hs _ ih))
  exact fun x hx => (hs x (hreaches x hx)).of_keeps hk

/-- What is shown as a tree of arrays and plain objects stays shown. -/
theorem Shows.of_plain (hk : h.Keeps (fun _ => True) h') {t : ScriptTree}
    (hs : h.Shows h.IsPlain t s) : h'.Shows h'.IsPlain t s :=
  (hs.keeps hk (fun _ ha => ha) fun _ ho => ⟨trivial, ho.1⟩).imp fun _ => .of_keeps hk

/-- What is shown as a tree of arrays and plain objects is plain. -/
theorem Shows.plain {t : ScriptTree} (hs : h.Shows h.IsPlain t s) : h.Plain s := by
  intro x hx
  obtain ⟨u, hu, -⟩ := hs.exists_of_reaches hx
  cases hu with
  | array here => exact here
  | object here => exact here
  | _ => trivial

end Heap

/-- Something is true of a plain value that leads to no cycle, in a state, if it is true of any such
value as soon as it is true, in all states that keep the heap, of all that the value holds. -/
theorem World.induction_of_acyclic {C : ScriptValue → World → Prop}
    (step : ∀ s w, w.heap.Plain s → w.heap.Acyclic s →
      (∀ y, w.heap.Holds s y → ∀ w', w.Keeps w' → C y w') → C s w)
    {s : ScriptValue} {w : World} (hplain : w.heap.Plain s) (hacyclic : w.heap.Acyclic s) :
    C s w := by
  -- The tree that the value is shown as stays the same in all those states.
  suffices ∀ n t s w, t.height = n → w.heap.Shows w.heap.IsPlain t s → C s w by
    obtain ⟨t, ht⟩ := Heap.exists_shows hacyclic hplain.dataOnly hplain
    exact this _ t s w rfl ht
  intro n
  induction n using Nat.strongRecOn with
  | _ n ih =>
    rintro t s w rfl ht
    refine step s w ht.plain ht.acyclic fun y hy w' hkeeps => ?_
    obtain ⟨u, hu, hlt⟩ := ht.exists_of_holds hy
    exact ih u.height hlt u y w' rfl (hu.of_plain hkeeps)

namespace Heap.Plain

variable {h : Heap} {w : World} {o : ObjectId}

/-- The entries of a plain object are the values that it holds. -/
theorem exists_entries (ho : h.Plain (.object o)) :
    ∃ fields : List (String × ScriptValue),
      (∀ (r : Reentry) (w : World), w.heap = h → r.entries o w = some (.ok fields, w)) ∧
      ∀ y, h.Holds (.object o) y ↔ ∃ f ∈ fields, f.2 = y := by
  obtain ⟨-, -, -, hdata, hkeys⟩ := ho.here
  obtain ⟨fields, hfields⟩ := hdata.exists_values
  rw [Heap.ownKeys_of_data hfields] at hkeys
  refine ⟨fields, ?_, fun y => ⟨?_, ?_⟩⟩
  · rintro r w rfl
    exact r.entries_of_data hfields hkeys
  · rintro ⟨⟩
    next key mem =>
      rw [hfields] at mem
      obtain ⟨f, hf, heq⟩ := List.mem_map.1 mem
      cases heq
      exact ⟨f, hf, rfl⟩
  · rintro ⟨f, hf, rfl⟩
    have hmem : (f.1, Property.data f.2) ∈ (h.object o).properties := by
      rw [hfields]
      exact List.mem_map_of_mem hf
    exact .field hmem

/-- Reading a plain object gives nothing or what it holds. -/
theorem exists_get (ho : w.heap.Plain (.object o)) (key : String) :
    ∃ s, (∀ r : Reentry, r.get o key w = some (.ok s, w)) ∧
      (s = .undefined ∨ w.heap.Holds (.object o) s) := by
  obtain ⟨-, -, hprototypes, hdata, -⟩ := ho.here
  have hlookup : w.heap.lookup? o key = w.heap.own? o key := by
    rw [Heap.lookup?, Heap.chain, hprototypes, List.findSome?_cons]
    cases w.heap.own? o key <;> rfl
  cases hown : w.heap.own? o key with
  | none =>
    refine ⟨.undefined, fun r => ?_, .inl rfl⟩
    rw [Reentry.get, bind_ok (ofHeap_apply _ w), hlookup, hown]
    rfl
  | some property =>
    have hmem := Keyed.mem_of_get? hown
    obtain ⟨s, hs⟩ := hdata _ hmem
    cases hs
    exact ⟨s, fun r => r.get_of_own hown, .inr (.field hmem)⟩

/-- What a plain object has for a property of a class is nothing or what it holds. -/
theorem exists_plainValue (ho : w.heap.Plain (.object o)) (p : FillableProperty) :
    ∃ s, (∀ r : Reentry, r.plainValue o p w = some (.ok s, w)) ∧
      (s = .undefined ∨ w.heap.Holds (.object o) s) := by
  obtain ⟨s, hget, hs⟩ := ho.exists_get p.name
  obtain ⟨s', hget', hs'⟩ := ho.exists_get p.member
  by_cases hmember : s = .undefined && p.name != p.member
  · refine ⟨s', fun r => ?_, hs'⟩
    rw [Reentry.plainValue, bind_ok (hget r), if_pos hmember]
    exact hget' r
  · refine ⟨s, fun r => ?_, hs⟩
    rw [Reentry.plainValue, bind_ok (hget r), if_neg hmember]
    rfl

end Heap.Plain

/-! ## Host code -/

namespace Catalog

variable (catalog : Catalog)

/-- How deep values are followed is told by the allowance. -/
theorem depth_reentry (n : Nat) : (catalog.reentry n).depth = n := by
  cases n <;> rfl

/-- Native code comes to an end in every state, and keeps the heap. -/
def CodeEnds (code : NativeCode) : Prop :=
  ∀ w, Ends (fun n => code.run (catalog.reentry n)) w

/-- The code that fills instances of classes from plain objects ends: that of constructors without
arguments and that of setters. -/
structure FillsEnd : Prop where
  constructor : ∀ c k, catalog.constructorFor c 0 = some k →
    ∀ target, catalog.CodeEnds (k.code target [])
  setter : ∀ c name i, catalog.implementation? c .setter name = some i →
    ∀ target args, catalog.CodeEnds (i.code target args)

variable {catalog} {w : World}

/-- The callable for a function is found or made, and the heap stays as it is. -/
theorem exists_callableFor {ε : Type} (catalog : Catalog) (f : FunctionId) (shape : Shape)
    (w : World) : ∃ c w', (catalog.callableFor f shape : Run ε Callable) w = some (.ok c, w') ∧
      w'.heap = w.heap := by
  have hbind : ∃ c w', (catalog.bind f shape : Run ε Callable) w = some (.ok c, w') ∧
      w'.heap = w.heap := by
    rw [Catalog.bind, bind_ok (read_apply _ w)]
    cases w.exposer.bindings.find? fun b =>
        b.shape.same catalog.identity shape && b.function == f with
    | some b => exact ⟨b.wrapper, w, rfl, rfl⟩
    | none => exact ⟨_, _, rfl, rfl⟩
  rw [callableFor, bind_ok (ofHeap_apply _ w)]
  cases (w.heap.function f).callable? with
  | none => exact hbind
  | some c =>
    by_cases hc : c.shape.same catalog.identity shape = true
    · exact ⟨c, w, by simp only [hc, if_true, pure_apply], rfl⟩
    · simp only [hc]
      exact hbind

theorem ends_callableFor {ε : Type} (catalog : Catalog) (f : FunctionId) (shape : Shape)
    (w : World) : Ends (fun _ => (catalog.callableFor f shape : Run ε Callable)) w := by
  obtain ⟨c, w', hrun, hheap⟩ := catalog.exists_callableFor f shape w
  refine .of_some (fun _ => hrun) ?_
  rw [World.Keeps, hheap]
  exact .refl _ _

/-! ## Where no type is asked for -/

theorem anyToNative_array (r : Reentry) (n : Nat) (a : ArrayId) :
    catalog.anyToNative r (n + 1) (.array a) w =
      (NativeValue.array <$> (w.heap.items a).mapM (catalog.anyToNative r n)) w := rfl

theorem anyToNative_object (r : Reentry) (n : Nat) {o : ObjectId}
    (ho : (w.heap.object o).target = none) {entries : List (String × ScriptValue)}
    (hentries : r.entries o w = some (.ok entries, w)) :
    catalog.anyToNative r (n + 1) (.object o) w =
      (NativeValue.dictionary <$> entries.mapM fun entry =>
        (entry.1, ·) <$> catalog.anyToNative r n entry.2) w := by
  refine (bind_ok (ofHeap_apply (·.object o) w) _).trans ?_
  rw [ho]
  exact bind_ok hentries _

/-- A plain value without cycles is converted where no type is asked for, at any depth within
another conversion. -/
theorem ends_anyToNative {s : ScriptValue} (hplain : w.heap.Plain s) (hacyclic : w.heap.Acyclic s)
    (depth : Nat) :
    Ends (fun n => catalog.anyToNative (catalog.reentry n) (n - depth) s) w := by
  refine World.induction_of_acyclic (C := fun s w => ∀ depth,
    Ends (fun n => catalog.anyToNative (catalog.reentry n) (n - depth) s) w)
    ?_ hplain hacyclic depth
  intro s w hplain _ ih depth
  -- Where there is room for one more level, the values that are held are one level deeper.
  suffices Ends (fun n =>
      catalog.anyToNative (catalog.reentry n) (n - (depth + 1) + 1) s) w from
    this.congr (N := depth + 1) fun n hn => by rw [show n - depth = n - (depth + 1) + 1 by omega]
  cases s with
  | array a =>
    refine .congr (N := 0) (.map (.mapM fun y hy u hu => ?_) .array)
      fun n _ => anyToNative_array _ _ a
    exact ih y (.item hy) u hu (depth + 1)
  | object o =>
    obtain ⟨fields, hentries, hheld⟩ := hplain.exists_entries
    refine .congr (N := 0) (.map (.mapM fun f hf u hu => .map ?_ _) .dictionary)
      fun n _ => anyToNative_object _ _ hplain.here.2.1 (hentries _ _ rfl)
    exact ih f.2 ((hheld f.2).2 ⟨f, hf, rfl⟩) u hu (depth + 1)
  | function f => exact .map (catalog.ends_callableFor f _ w) NativeValue.callable
  | date millis => exact .map (.ofExcept _) NativeValue.datetime
  | _ => exact .pure _

/-! ## Instances of classes -/

theorem ends_record {ε : Type} (call : CallRecord) :
    Ends (fun _ => (Run.record call : Run ε Unit)) w :=
  .of_some (fun _ => rfl) (Heap.Keeps.refl _ w.heap)

theorem ends_runConstructor (c made : ClassRef) {code : MemberCode} {args : List NativeValue}
    (hcode : ∀ target, catalog.CodeEnds (code target args)) :
    Ends (fun n => (catalog.reentry n).runConstructor c made code args) w := by
  refine .bind (ends_record _) fun _ w' _ => ?_
  have hnew : Ends (fun _ => (Run.newInstance made : Run HostError Instance)) w' :=
    .of_some (fun _ => rfl) (Heap.Keeps.refl _ w'.heap)
  exact .bind hnew fun target u _ => .bind (hcode target u) fun _ _ _ => .pure target

theorem ends_runImplementation {i : Implementation} {target : Instance} {args : List NativeValue}
    (hcode : catalog.CodeEnds (i.code target args)) :
    Ends (fun n => catalog.runImplementation (catalog.reentry n) i target args) w := by
  unfold runImplementation
  split
  · exact .bind (ends_record _) fun _ w' _ => hcode w'
  · exact .throw _

/-- The setter of a property that plain objects fill is code of its class. -/
theorem exists_setter_of_mem_fillables {c : ClassRef} {members : List ExposedMember}
    {p : FillableProperty} (hp : p ∈ catalog.fillables c members) :
    ∃ m ∈ members, catalog.implementation? c .setter m.member = some p.setter := by
  obtain ⟨m, hm, hfillable⟩ := List.mem_filterMap.1 hp
  refine ⟨m, hm, ?_⟩
  unfold fillable? at hfillable
  split at hfillable
  · next hsetter =>
    cases hfillable
    exact hsetter
  · cases hfillable

/-- One more level of calls takes one more of the allowance. -/
theorem ends_toNative_reentry {type : NativeType} {s : ScriptValue}
    (h : Ends (fun n => catalog.toNative (catalog.reentry n) type s) w) :
    Ends (fun n => (catalog.reentry n).toNative type s) w := by
  obtain ⟨N, r, w', hr, hkeeps⟩ := h
  refine ⟨N + 1, r, w', fun n hn => ?_, hkeeps⟩
  obtain ⟨m, rfl⟩ := Nat.exists_eq_add_of_le' hn
  exact hr (m + N) (by omega)

/-- Filling a property ends if converting what the object holds does. -/
theorem ends_fill {o : ObjectId} (ho : w.heap.Plain (.object o))
    (hheld : ∀ y, w.heap.Holds (.object o) y → ∀ type,
      Ends (fun n => catalog.toNative (catalog.reentry n) type y) w)
    {target : Instance} {p : FillableProperty}
    (hcode : ∀ args, catalog.CodeEnds (p.setter.code target args)) :
    Ends (fun n => catalog.fill (catalog.reentry n) o target p) w := by
  obtain ⟨given, hgiven, hfound⟩ := ho.exists_plainValue p
  refine .congr (N := 0) ?_ fun n _ => bind_ok (hgiven (catalog.reentry n)) _
  have hset : ∀ (value : NativeValue) (w' : World), Ends (fun n => do
      let _ ← (catalog.runImplementation (catalog.reentry n) p.setter target [value]).mapError
        (Error.ofHost p.member)) w' :=
    fun value w' => .bind (.mapError (ends_runImplementation (hcode [value])) _)
      fun _ _ _ => .pure ()
  by_cases hnothing : given = .undefined
  · simp only [hnothing, if_true]
    refine .bind (.pure p.default) fun value w' _ => ?_
    cases value with
    | none => exact .pure ()
    | some value => exact hset value w'
  · simp only [hnothing, if_false]
    have hgiven := hheld given (hfound.resolve_left hnothing) p.type
    refine .bind (.map (ends_toNative_reentry hgiven) some) fun value w' _ => ?_
    cases value with
    | none => exact .pure ()
    | some value => exact hset value w'

/-- Making an instance of a plain object ends if converting what the object holds does. -/
theorem ends_constructFromPlain (hhost : catalog.FillsEnd) {o : ObjectId}
    (ho : w.heap.Plain (.object o))
    (hheld : ∀ y, w.heap.Holds (.object o) y → ∀ w', w.Keeps w' → ∀ type,
      Ends (fun n => catalog.toNative (catalog.reentry n) type y) w') (c : ClassRef) :
    Ends (fun n => catalog.constructFromPlain (catalog.reentry n) o c) w := by
  unfold constructFromPlain
  by_cases hc : catalog.isInterface c = true
  · simp only [hc, if_true]
    exact .of_some (fun _ => bind_error rfl _) (Heap.Keeps.refl _ w.heap)
  · simp only [hc]
    cases hctor : catalog.constructorFor c 0 with
    | none => exact .throw _
    | some k =>
      have hmade := ends_runConstructor (w := w) c (catalog.made c) (hhost.constructor c k hctor)
      refine .bind (.mapError hmade _) fun target u hu => ?_
      have hresolve : Ends (fun _ => catalog.resolve target.runtimeClass) u :=
        .of_some (fun _ => catalog.resolve_apply _ u) (Heap.Keeps.refl _ u.heap)
      refine .bind hresolve fun members v hv => ?_
      have hkeeps : w.Keeps v := IsTrans.trans _ _ _ hu hv
      refine .bind (.forM fun p hp v' hv' => ?_) fun _ _ _ => .pure _
      have hkeeps' : w.Keeps v' := IsTrans.trans _ _ _ hkeeps hv'
      obtain ⟨m, -, hsetter⟩ := exists_setter_of_mem_fillables hp
      refine ends_fill (ho.of_keeps hkeeps') (fun y hy type => ?_)
        (hhost.setter _ _ _ hsetter target)
      exact hheld y (hy.of_keeps hkeeps' ho.here) v' hkeeps' type

/-! ## Types -/

theorem ends_textEntries {o : ObjectId} (ho : w.heap.Plain (.object o)) :
    Ends (fun n => (catalog.reentry n).textEntries o) w := by
  obtain ⟨fields, hentries, -⟩ := ho.exists_entries
  refine .congr (N := 0) ?_ fun n _ => bind_ok (hentries (catalog.reentry n) _ rfl) _
  refine .bind (.mapM fun f _ u _ => ?_) fun texts _ _ => .pure _
  obtain ⟨key, value⟩ := f
  cases value with
  | array a => exact .of_some (fun _ => bind_ok (ofHeap_apply _ u) _) (Heap.Keeps.refl _ u.heap)
  | _ => exact .pure _

/-- A conversion to a type ends if those to the types within it end for what the value holds, and
those end that follow the value further than the type says. -/
theorem ends_toNative_of_parts {type : NativeType} {s : ScriptValue} (hplain : w.heap.Plain s)
    (hheld : ∀ element, type = .array element ∨ type = .dictionary element →
      ∀ y, w.heap.Holds s y → ∀ w', w.Keeps w' →
        Ends (fun n => catalog.toNative (catalog.reentry n) element y) w')
    (hjson : type = .json → Ends (fun n => (catalog.reentry n).jsonText s) w)
    (hany : type = .any →
      Ends (fun n => catalog.anyToNative (catalog.reentry n) (catalog.reentry n).depth s) w)
    (hobject : ∀ c o, type = .object c → s = .object o →
      Ends (fun n => catalog.objectToNative (catalog.reentry n) o c) w) :
    Ends (fun n => catalog.toNative (catalog.reentry n) type s) w := by
  by_cases hnullish : s.isNullish = true
  · simp only [toNative_of_nullish catalog _ type hnullish]
    exact .pure _
  have hpresent : s.isNullish = false := eq_false_of_ne_true hnullish
  cases type with
  | int kind =>
    simp only [toNative_int catalog _ kind hpresent]
    exact .map (.ofExcept _) _
  | float kind =>
    simp only [toNative_float catalog _ kind hpresent]
    exact .map (.ofExcept _) _
  | enumeration d =>
    simp only [toNative_enumeration catalog _ d hpresent]
    exact .map (.ofExcept _) _
  | void =>
    simp only [toNative_void catalog _ hpresent]
    exact .pure _
  | sequence element =>
    simp only [toNative_sequence catalog _ element hpresent]
    exact .throw _
  | json =>
    simp only [toNative_json catalog _ hpresent]
    exact .map (hjson rfl) _
  | any =>
    simp only [toNative_any catalog _ hpresent]
    exact hany rfl
  | bool =>
    cases s with
    | bool b => exact .pure _
    | undefined | null => exact .pure _
    | _ => exact .throw _
  | char =>
    cases s with
    | string text => exact .pure _
    | undefined | null => exact .pure _
    | _ => exact .throw _
  | string =>
    cases s with
    | string text => exact .pure _
    | undefined | null => exact .pure _
    | _ => exact .throw _
  | datetime =>
    cases s with
    | date millis => exact .map (.ofExcept _) NativeValue.datetime
    | undefined | null => exact .pure _
    | _ => exact .throw _
  | array element =>
    cases s with
    | array a =>
      refine .congr (N := 0) (.map (.mapM fun y hy u hu => ?_) NativeValue.array) fun n _ =>
        bind_ok (ofHeap_apply _ w) _
      exact hheld element (.inl rfl) y (.item hy) u hu
    | undefined | null => exact .pure _
    | _ => exact .throw _
  | dictionary element =>
    cases s with
    | object o =>
      obtain ⟨fields, hentries, hfields⟩ := hplain.exists_entries
      refine .congr (N := 0) (.map (.mapM fun f hf u hu => .map ?_ (f.1, ·)) NativeValue.dictionary)
        fun n _ => bind_ok (hentries (catalog.reentry n) _ rfl) _
      exact hheld element (.inr rfl) f.2 ((hfields f.2).2 ⟨f, hf, rfl⟩) u hu
    | undefined | null => exact .pure _
    | _ => exact .throw _
  | multimap =>
    cases s with
    | object o => exact .map (ends_textEntries hplain) NativeValue.multimap
    | undefined | null => exact .pure _
    | _ => exact .throw _
  | callable shape =>
    cases s with
    | function f => exact .map (catalog.ends_callableFor f shape w) NativeValue.callable
    | undefined | null => exact .pure _
    | _ => exact .throw _
  | object c =>
    cases s with
    | object o => exact hobject c o rfl rfl
    | undefined | null => exact .pure _
    | _ => exact .throw _

/-- A plain value without cycles has a JSON text or none. -/
theorem ends_jsonText {s : ScriptValue} (hplain : w.heap.Plain s) (hacyclic : w.heap.Acyclic s) :
    Ends (fun n => (catalog.reentry n).jsonText s) w := by
  obtain ⟨t, ht⟩ := Heap.exists_shows hacyclic hplain.dataOnly hplain
  have hroom : ∀ n, t.height + 1 ≤ n → t.height < (catalog.reentry n).depth := by
    intro n hn
    rw [depth_reentry]
    exact hn
  exact ⟨t.height + 1, _, w, fun n hn => (catalog.reentry n).jsonText_of_shows
    (fun o ho => ho.2.2.2.2) ht (hroom n hn), Heap.Keeps.refl _ w.heap⟩

end Catalog

/-- The type says how far a value is followed: JSON text, classes and whatever a value turns out to
be do not occur in it. -/
def NativeType.isBounded : NativeType → Bool
  | .json | .any | .object _ => false
  | .array element | .dictionary element => element.isBounded
  | _ => true

namespace Catalog

variable {catalog : Catalog} {w : World}

/-- A plain value is converted to any type that bounds how far it is followed. -/
theorem ends_of_bounded {type : NativeType} (htype : type.isBounded = true) {s : ScriptValue}
    (hplain : w.heap.Plain s) : Ends (fun n => catalog.toNative (catalog.reentry n) type s) w := by
  -- By induction on the size of the type, since types and parameters are defined together.
  induction hn : sizeOf type using Nat.strongRecOn generalizing type s w with
  | _ n ih =>
    subst hn
    refine ends_toNative_of_parts hplain ?_ ?_ ?_ ?_
    · intro element htypes y hy w' hkeeps
      have hlater : w'.heap.Plain y := (hplain.of_holds hy).of_keeps hkeeps
      have helement : element.isBounded = true := by
        rcases htypes with rfl | rfl <;> exact htype
      have hlt : sizeOf element < sizeOf type := by
        rcases htypes with rfl | rfl <;> simp
      exact ih _ hlt helement hlater rfl
    · rintro rfl
      cases htype
    · rintro rfl
      cases htype
    · rintro c o rfl
      cases htype

/-- A plain value without cycles is converted to any type, as far as no class is asked for or the
code that fills instances of classes ends. -/
theorem ends_of_acyclic {type : NativeType} (hhost : type.referenced = none ∨ catalog.FillsEnd)
    {s : ScriptValue} (hplain : w.heap.Plain s) (hacyclic : w.heap.Acyclic s) :
    Ends (fun n => catalog.toNative (catalog.reentry n) type s) w := by
  refine World.induction_of_acyclic (C := fun s w => ∀ type : NativeType,
    (type.referenced = none ∨ catalog.FillsEnd) →
      Ends (fun n => catalog.toNative (catalog.reentry n) type s) w) ?_ hplain hacyclic type hhost
  intro s w hplain hacyclic ih type hhost
  refine ends_toNative_of_parts hplain ?_ ?_ ?_ ?_
  · rintro element (rfl | rfl) y hy w' hkeeps <;> exact ih y hy w' hkeeps element hhost
  · exact fun _ => ends_jsonText hplain hacyclic
  · intro _
    exact (ends_anyToNative hplain hacyclic 0).congr (N := 0) fun n _ => by rw [depth_reentry]; rfl
  · rintro c o rfl rfl
    have hfills : catalog.FillsEnd := hhost.resolve_left (Option.some_ne_none c)
    refine .congr (N := 0) (ends_constructFromPlain hfills hplain
      (fun y hy w' hkeeps type => ih y hy w' hkeeps type (.inr hfills)) c) fun n _ => ?_
    rw [objectToNative, bind_ok (ofHeap_apply _ w), hplain.here.2.1]

end Catalog

end ScriptBoundary
