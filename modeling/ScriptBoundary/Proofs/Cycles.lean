import ScriptBoundary.Proofs.Ending

/-!
# Conversions that never end

Arrays and objects of scripts can come to hold themselves. A conversion that follows what they hold
as far as it goes has no end there: whatever its allowance is, it uses it up. It would be saved by a
failure on the way only, and what it meets before the cycle does not fail.
-/

namespace ScriptBoundary

open Run

namespace Run

variable {ε α β : Type} {h : Heap}

/-- On states with a heap, the computation uses up its allowance or succeeds and leaves the heap. -/
def Persists (h : Heap) (x : Run ε α) : Prop :=
  ∀ w : World, w.heap = h → x w = none ∨ ∃ a w', x w = some (.ok a, w') ∧ w'.heap = h

/-- On states with a heap, the computation uses up its allowance. -/
def Hangs (h : Heap) (x : Run ε α) : Prop := ∀ w : World, w.heap = h → x w = none

/-- A computation that used up its allowance does not go on. -/
theorem bind_none {x : Run ε α} {w : World} (hx : x w = none) (f : α → Run ε β) :
    (x >>= f) w = none := by
  show (x w).bind _ = none
  rw [hx]
  rfl

namespace Persists

theorem pure (a : α) : Persists h (Pure.pure a : Run ε α) := fun w hw => .inr ⟨a, w, rfl, hw⟩

theorem exhausted : Persists h (Run.exhausted : Run ε α) := fun _ _ => .inl rfl

theorem bind {x : Run ε α} {f : α → Run ε β} (hx : Persists h x) (hf : ∀ a, Persists h (f a)) :
    Persists h (x >>= f) := by
  intro w hw
  rcases hx w hw with hnone | ⟨a, w', hsome, hw'⟩
  · exact .inl (bind_none hnone f)
  · rw [bind_ok hsome]
    exact hf a w' hw'

/-- What is read off the heap is the same in all those states. -/
theorem bind_known {x : Run ε α} {a : α} {f : α → Run ε β}
    (hx : ∀ w : World, w.heap = h → x w = some (.ok a, w)) (hf : Persists h (f a)) :
    Persists h (x >>= f) := by
  intro w hw
  rw [bind_ok (hx w hw)]
  exact hf w hw

theorem map {x : Run ε α} (hx : Persists h x) (f : α → β) : Persists h (f <$> x) :=
  hx.bind fun a => pure (f a)

theorem mapM {x : α → Run ε β} {l : List α} (hx : ∀ a ∈ l, Persists h (x a)) :
    Persists h (l.mapM x) := by
  induction l with
  | nil => exact pure []
  | cons a l ih =>
    rw [List.mapM_cons]
    refine (hx a List.mem_cons_self).bind fun b => ?_
    exact (ih fun c hc => hx c (List.mem_cons_of_mem _ hc)).bind fun bs => pure (b :: bs)

end Persists

namespace Hangs

theorem bind {x : Run ε α} (hx : Hangs h x) (f : α → Run ε β) : Hangs h (x >>= f) :=
  fun w hw => bind_none (hx w hw) f

theorem map {x : Run ε α} (hx : Hangs h x) (f : α → β) : Hangs h (f <$> x) := hx.bind _

/-- A computation hangs after a step that does not fail. -/
theorem bind_of_persists {x : Run ε α} {f : α → Run ε β} (hx : Persists h x)
    (hf : ∀ a, Hangs h (f a)) : Hangs h (x >>= f) := by
  intro w hw
  rcases hx w hw with hnone | ⟨a, w', hsome, hw'⟩
  · exact bind_none hnone f
  · rw [bind_ok hsome]
    exact hf a w' hw'

theorem bind_known {x : Run ε α} {a : α} {f : α → Run ε β}
    (hx : ∀ w : World, w.heap = h → x w = some (.ok a, w)) (hf : Hangs h (f a)) :
    Hangs h (x >>= f) := by
  intro w hw
  rw [bind_ok (hx w hw)]
  exact hf w hw

/-- Steps of which none fails and one hangs, hang. -/
theorem mapM {x : α → Run ε β} {l : List α} (hx : ∀ a ∈ l, Persists h (x a)) {a : α} (ha : a ∈ l)
    (hhangs : Hangs h (x a)) : Hangs h (l.mapM x) := by
  induction l with
  | nil => cases ha
  | cons b l ih =>
    rw [List.mapM_cons]
    rcases List.mem_cons.1 ha with rfl | ha
    · exact hhangs.bind _
    · refine bind_of_persists (hx b List.mem_cons_self) fun _ => ?_
      exact (ih (fun c hc => hx c (List.mem_cons_of_mem _ hc)) ha).bind _

end Hangs

end Run

namespace Heap

variable {h : Heap} {s : ScriptValue}

/-- What leads to a cycle holds something that leads to a cycle. -/
theorem exists_holds_of_not_acyclic (hs : ¬ h.Acyclic s) : ∃ y, h.Holds s y ∧ ¬ h.Acyclic y := by
  simp only [Acyclic, not_forall, not_not] at hs
  obtain ⟨x, hsx, hcycle⟩ := hs
  rcases Relation.ReflTransGen.cases_head hsx with rfl | ⟨y, hsy, hyx⟩
  · -- The value is on the cycle itself, and so is the next.
    obtain ⟨y, hxy, hyx⟩ := Relation.TransGen.head'_iff.1 hcycle
    exact ⟨y, hxy, fun hy => hy s hyx hcycle⟩
  · exact ⟨y, hsy, fun hy => hy x hyx hcycle⟩

end Heap

namespace Reentry

variable (r : Reentry) {h : Heap}

/-- Serialising a plain value does not fail. -/
theorem persists_toJson (n : Nat) {s : ScriptValue} (hs : h.Plain s) :
    Persists h (r.toJson n s) := by
  induction n generalizing s with
  | zero => exact .exhausted
  | succ n ih =>
    cases s with
    | array a =>
      refine .bind_known (a := h.items a) ?_ (.bind (.mapM fun y hy => ?_) fun _ => .pure _)
      · rintro w rfl
        rfl
      · exact ih (hs.of_holds (.item hy))
    | object o =>
      obtain ⟨fields, hentries, hheld⟩ := hs.exists_entries
      refine .bind_known (a := fields) (fun w hw => mapError_some (hentries r w hw) _) ?_
      refine .bind (.mapM fun f hf => ?_) fun _ => .pure _
      exact .bind (ih (hs.of_holds ((hheld f.2).2 ⟨f, hf, rfl⟩))) fun _ => .pure _
    | _ => exact .pure _

/-- Serialising a plain value that leads to a cycle does not end. -/
theorem hangs_toJson (n : Nat) {s : ScriptValue} (hs : h.Plain s) (hcycle : ¬ h.Acyclic s) :
    Hangs h (r.toJson n s) := by
  induction n generalizing s with
  | zero => exact fun _ _ => rfl
  | succ n ih =>
    obtain ⟨y, hy, hcycle⟩ := Heap.exists_holds_of_not_acyclic hcycle
    have hhangs := ih (hs.of_holds hy) hcycle
    cases hy with
    | @item a _ mem =>
      refine .bind_known (a := h.items a) ?_ (.bind (.mapM (fun z hz => ?_) mem hhangs) _)
      · rintro w rfl
        rfl
      · exact r.persists_toJson n (hs.of_holds (.item hz))
    | @field o key _ mem =>
      obtain ⟨fields, hentries, hheld⟩ := hs.exists_entries
      obtain ⟨f, hf, rfl⟩ := (hheld y).1 (.field mem)
      refine .bind_known (a := fields) (fun w hw => mapError_some (hentries r w hw) _) ?_
      refine .bind (.mapM (fun g hg => ?_) hf (hhangs.bind _)) _
      have hg := r.persists_toJson n (hs.of_holds ((hheld g.2).2 ⟨g, hg, rfl⟩))
      exact hg.bind fun _ => .pure _

end Reentry

/-- All dates that a value leads to are instants. -/
def Heap.Timely (h : Heap) (s : ScriptValue) : Prop :=
  ∀ millis, h.Reaches s (.date millis) → ∃ t, Instant.ofDate millis = .ok t

theorem Heap.Timely.of_holds {h : Heap} {s x : ScriptValue} (hs : h.Timely s) (hx : h.Holds s x) :
    h.Timely x :=
  fun millis hmillis => hs millis (.head hx hmillis)

namespace Catalog

variable {catalog : Catalog} {r : Reentry} {h : Heap}

theorem persists_callableFor {ε : Type} (f : FunctionId) (shape : Shape) :
    Persists h (catalog.callableFor f shape : Run ε Callable) := by
  rintro w rfl
  obtain ⟨c, w', hrun, hheap⟩ := catalog.exists_callableFor f shape w
  exact .inr ⟨c, w', hrun, hheap⟩

/-- Converting a plain value whose dates are instants does not fail where no type is asked for. -/
theorem persists_anyToNative (n : Nat) {s : ScriptValue} (hs : h.Plain s) (hdates : h.Timely s) :
    Persists h (catalog.anyToNative r n s) := by
  induction n generalizing s with
  | zero => exact .exhausted
  | succ n ih =>
    cases s with
    | array a =>
      rintro w rfl
      rw [anyToNative_array]
      refine Persists.map (.mapM fun y hy => ?_) _ w rfl
      exact ih (hs.of_holds (.item hy)) (hdates.of_holds (.item hy))
    | object o =>
      obtain ⟨fields, hentries, hheld⟩ := hs.exists_entries
      rintro w rfl
      rw [anyToNative_object r n hs.here.2.1 (hentries r w rfl)]
      refine Persists.map (.mapM fun f hf => .map ?_ _) _ w rfl
      have hf := (hheld f.2).2 ⟨f, hf, rfl⟩
      exact ih (hs.of_holds hf) (hdates.of_holds hf)
    | function f => exact .map (persists_callableFor f _) NativeValue.callable
    | date millis =>
      obtain ⟨t, ht⟩ := hdates millis .refl
      refine .bind_known (a := t) (fun w _ => ?_) (.pure _)
      rw [ht]
      rfl
    | _ => exact .pure _

/-- Converting a plain value that leads to a cycle does not end where no type is asked for, unless a
date on the way is no instant. -/
theorem hangs_anyToNative (n : Nat) {s : ScriptValue} (hs : h.Plain s) (hdates : h.Timely s)
    (hcycle : ¬ h.Acyclic s) : Hangs h (catalog.anyToNative r n s) := by
  induction n generalizing s with
  | zero => exact fun _ _ => rfl
  | succ n ih =>
    obtain ⟨y, hy, hcycle⟩ := Heap.exists_holds_of_not_acyclic hcycle
    have hhangs := ih (hs.of_holds hy) (hdates.of_holds hy) hcycle
    have hpersists : ∀ z, h.Holds s z → Persists h (catalog.anyToNative r n z) :=
      fun z hz => persists_anyToNative n (hs.of_holds hz) (hdates.of_holds hz)
    cases hy with
    | item mem =>
      rintro w rfl
      rw [anyToNative_array]
      exact Hangs.map (.mapM (fun z hz => hpersists z (.item hz)) mem hhangs) _ w rfl
    | field mem =>
      obtain ⟨fields, hentries, hheld⟩ := hs.exists_entries
      obtain ⟨f, hf, rfl⟩ := (hheld y).1 (.field mem)
      have hfield : Hangs h ((f.1, ·) <$> catalog.anyToNative r n f.2) := hhangs.map _
      have hfields : Hangs h (fields.mapM fun g => (g.1, ·) <$> catalog.anyToNative r n g.2) :=
        .mapM (fun g hg => (hpersists g.2 ((hheld g.2).2 ⟨g, hg, rfl⟩)).map _) hf hfield
      rintro w rfl
      rw [anyToNative_object r n hs.here.2.1 (hentries r w rfl)]
      exact hfields.map _ w rfl

/-- A value that leads to a cycle is an array or an object. -/
theorem isNullish_of_not_acyclic {s : ScriptValue} (hcycle : ¬ h.Acyclic s) :
    s.isNullish = false := by
  obtain ⟨y, hy, -⟩ := Heap.exists_holds_of_not_acyclic hcycle
  cases hy <;> rfl

/-- Where conversions end. A value of a heap of arrays and plain objects with data properties is
converted to a type, by a value or an error that does not depend on the allowance from some
allowance on, if the type says how far the value is followed or the value leads to no cycle; the
host is taken at its word that the code which fills instances of classes ends, if there are classes
in the type. If the value leads to a cycle, the conversion to JSON text does not end, and neither
does that where no type is asked for, as long as no date is met that is no instant. -/
theorem conversion_ends_where (catalog : Catalog) {w : World} {s : ScriptValue}
    (hplain : w.heap.Plain s) :
    (∀ type : NativeType, type.referenced = none ∨ catalog.FillsEnd →
      type.isBounded = true ∨ w.heap.Acyclic s →
        ∃ N result w', ∀ n, N ≤ n →
          catalog.toNative (catalog.reentry n) type s w = some (result, w')) ∧
    (¬ w.heap.Acyclic s →
      (∀ n, catalog.toNative (catalog.reentry n) .json s w = none) ∧
      (w.heap.Timely s → ∀ n, catalog.toNative (catalog.reentry n) .any s w = none)) := by
  refine ⟨fun type hhost h => ?_, fun hcycle => ⟨fun n => ?_, fun hdates n => ?_⟩⟩
  · have hends : Ends (fun n => catalog.toNative (catalog.reentry n) type s) w := by
      rcases h with hbounded | hacyclic
      · exact ends_of_bounded hbounded hplain
      · exact ends_of_acyclic hhost hplain hacyclic
    obtain ⟨N, result, w', hresult, -⟩ := hends
    exact ⟨N, result, w', hresult⟩
  · rw [toNative_json catalog _ (isNullish_of_not_acyclic hcycle)]
    have htree := (catalog.reentry n).hangs_toJson (catalog.reentry n).depth hplain hcycle
    exact (htree.bind _).map _ w rfl
  · rw [toNative_any catalog _ (isNullish_of_not_acyclic hcycle)]
    exact hangs_anyToNative _ hplain hdates hcycle w rfl

/-- A state with an array that holds itself, and an array of a pair of integers. -/
def mirrors : World where
  heap := { arrays := #[[.array ⟨0⟩], [.array ⟨2⟩], [.int (.clamp .i32 1), .int (.clamp .i32 2)]] }

/-- The array that holds itself leads to itself and nowhere else. -/
theorem eq_of_reaches_mirror {x : ScriptValue} (hx : mirrors.heap.Reaches (.array ⟨0⟩) x) :
    x = .array ⟨0⟩ := by
  induction hx with
  | refl => rfl
  | tail _ hstep ih =>
    subst ih
    cases hstep with
    | item mem => exact List.mem_singleton.1 mem

theorem plain_mirror : mirrors.heap.Plain (.array ⟨0⟩) := by
  intro x hx
  rw [eq_of_reaches_mirror hx]
  exact show 0 < 3 by decide

theorem timely_mirror : mirrors.heap.Timely (.array ⟨0⟩) := by
  intro millis hmillis
  cases eq_of_reaches_mirror hmillis

theorem not_acyclic_mirror : ¬ mirrors.heap.Acyclic (.array ⟨0⟩) :=
  fun hacyclic => hacyclic _ .refl (.single (.item (List.mem_singleton.2 rfl)))

/-- The array that holds itself is compared with arrays of integers and found to be none, and is
followed without end to JSON text and where no type is asked for; the other array is converted
either way. -/
theorem mirrors_end_where :
    (∃ N result w', ∀ n, N ≤ n → empty.toNative (empty.reentry n) (.array (.int .i32)) (.array ⟨0⟩)
      mirrors = some (result, w')) ∧
    (∀ n, empty.toNative (empty.reentry n) .json (.array ⟨0⟩) mirrors = none) ∧
    (∀ n, empty.toNative (empty.reentry n) .any (.array ⟨0⟩) mirrors = none) ∧
    (∃ N result w', ∀ n, N ≤ n → empty.toNative (empty.reentry n) .json (.array ⟨1⟩)
      mirrors = some (result, w')) ∧
    (∃ N result w', ∀ n, N ≤ n → empty.toNative (empty.reentry n) .any (.array ⟨1⟩)
      mirrors = some (result, w')) := by
  have hshows : mirrors.heap.Shows mirrors.heap.IsPlain
      (.array [.array [.int (.clamp .i32 1), .int (.clamp .i32 2)]]) (.array ⟨1⟩) := by
    refine .array (show 1 < 3 by decide) (.cons ?_ .nil)
    exact .array (show 2 < 3 by decide) (.cons (.int _) (.cons (.int _) .nil))
  obtain ⟨hends, hcycle⟩ := conversion_ends_where empty plain_mirror
  obtain ⟨hends', -⟩ := conversion_ends_where empty hshows.plain
  obtain ⟨hjson, hany⟩ := hcycle not_acyclic_mirror
  exact ⟨hends (.array (.int .i32)) (.inl rfl) (.inl rfl), hjson, hany timely_mirror,
    hends' .json (.inl rfl) (.inr hshows.acyclic), hends' .any (.inl rfl) (.inr hshows.acyclic)⟩

/-- In a finite heap of arrays there is a value whose conversion comes to no outcome. -/
theorem mirror_never_converted :
    mirrors.heap.Plain (.array ⟨0⟩) ∧ ¬ ∃ n outcome,
      empty.toNative (empty.reentry n) .any (.array ⟨0⟩) mirrors = some outcome := by
  refine ⟨plain_mirror, ?_⟩
  rintro ⟨n, outcome, hsome⟩
  rw [toNative_any empty _ (isNullish_of_not_acyclic not_acyclic_mirror),
    hangs_anyToNative _ plain_mirror timely_mirror not_acyclic_mirror mirrors rfl] at hsome
  cases hsome

end Catalog

end ScriptBoundary
