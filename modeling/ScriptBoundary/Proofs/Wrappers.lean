import Mathlib.Data.Finset.Card
import Mathlib.Data.Quot
import ScriptBoundary.Proofs.Histories
import ScriptBoundary.Proofs.Renaming

/-!
# One wrapper for each function and shape

A script function that native code gets for a shape has one wrapper, whatever happens in between.
The table of bindings, the counter of callables and the register of functions are kept in step by
every move (`Bound`), so the table has one entry for each pair that was wrapped, and each wrapper
calls the function of its own entry.
-/

namespace ScriptBoundary

open Run

/-- What an entry of the table of bindings is for. -/
def Binding.pair (b : Binding) : Shape × FunctionId := (b.shape, b.function)

namespace Catalog

variable (catalog : Catalog)

/-! ## Pairs -/

/-- Two pairs count as one when their shapes are the same and the functions are identical. -/
def pairSetoid : Setoid (Shape × FunctionId) where
  r p q := p.1.same catalog.identity q.1 = true ∧ p.2 = q.2
  iseqv := by
    have hsame := Shape.equivalence_same catalog.identity
    exact {
      refl := fun p => ⟨hsame.refl p.1, rfl⟩
      symm := fun h => ⟨hsame.symm h.1, h.2.symm⟩
      trans := fun h₁ h₂ => ⟨hsame.trans h₁.1 h₂.1, h₁.2.trans h₂.2⟩ }

instance (p q : Shape × FunctionId) : Decidable (catalog.pairSetoid p q) :=
  inferInstanceAs (Decidable (_ ∧ _))

/-- What pairs that count as one have in common. -/
def pairClass (p : Shape × FunctionId) : Quotient catalog.pairSetoid := Quotient.mk _ p

/-- The distinct pairs among those of a list. -/
def distinctPairs (pairs : List (Shape × FunctionId)) : Finset (Quotient catalog.pairSetoid) :=
  (pairs.map catalog.pairClass).toFinset

variable {catalog} in
theorem pairClass_eq_iff {p q : Shape × FunctionId} :
    catalog.pairClass p = catalog.pairClass q ↔
      p.1.same catalog.identity q.1 = true ∧ p.2 = q.2 :=
  ⟨fun h => Quotient.exact h, fun h => Quotient.sound h⟩

end Catalog

/-! ## The table of bindings -/

/-- The state with a new wrapper for a pair. -/
def World.withWrapper (w : World) (f : FunctionId) (shape : Shape) : World :=
  { w with
    callables := w.callables.push (.delegate (w.exposer.delegates.add f).2)
    exposer := { w.exposer with
      delegates := (w.exposer.delegates.add f).1
      bindings := w.exposer.bindings ++ [⟨shape, f, ⟨w.callables.size, shape⟩⟩] } }

/-- The wrapper of an entry has the shape of the entry and calls its function. -/
structure Binding.Works (b : Binding) (w : World) : Prop where
  shape : b.wrapper.shape = b.shape
  made : b.wrapper.number < w.callables.size
  calls : ∃ number ≤ w.exposer.delegates.size,
    w.callables.getD b.wrapper.number default = .delegate number ∧
      w.exposer.delegates.get? number = some b.function

namespace Binding.Works

variable {b : Binding} {w : World}

/-- A callable that is made leaves those that were there. -/
theorem getD_push {n : Nat} {callables : Array CallableBody} (h : n < callables.size)
    (body : CallableBody) : (callables.push body).getD n default = callables.getD n default := by
  simp [Array.getD_eq_getD_getElem?, Array.getElem?_push_lt, h]

theorem newCallable (hb : b.Works w) (body : CallableBody) :
    b.Works { w with callables := w.callables.push body } := by
  obtain ⟨number, hle, hbody, hfunction⟩ := hb.calls
  refine ⟨hb.shape, ?_, number, hle, ?_, hfunction⟩
  · exact Nat.lt_of_lt_of_le hb.made (by simp)
  · exact (getD_push hb.made body).trans hbody

/-- A wrapper that is made leaves those that were there. -/
theorem withWrapper (hb : b.Works w) (f : FunctionId) (shape : Shape) :
    b.Works (w.withWrapper f shape) := by
  obtain ⟨number, hle, hbody, hfunction⟩ := hb.calls
  refine ⟨hb.shape, (hb.newCallable _).made, number, ?_, (getD_push hb.made _).trans hbody, ?_⟩
  · exact (Nat.le_succ_of_le hle).trans (Nat.le_of_eq (Delegates.size_add _ f).symm)
  · exact (Delegates.get?_add_of_le hle f).trans hfunction

/-- A wrapper that is made works. -/
theorem made_withWrapper (w : World) (f : FunctionId) (shape : Shape) :
    Works ⟨shape, f, ⟨w.callables.size, shape⟩⟩ (w.withWrapper f shape) where
  shape := rfl
  made := Nat.lt_of_lt_of_eq (Nat.lt_succ_self _) (Array.size_push _).symm
  calls := by
    refine ⟨(w.exposer.delegates.add f).2, ?_, ?_, w.exposer.delegates.get?_add f⟩
    · exact Nat.le_of_eq (Delegates.size_add w.exposer.delegates f).symm
    · simp [World.withWrapper, Array.getD_eq_getD_getElem?]

end Binding.Works

namespace Catalog

variable (catalog : Catalog)

/-- The table has one entry for each of the pairs, with a wrapper of its own that works. -/
structure Bound (pairs : List (Shape × FunctionId)) (w : World) : Prop where
  distinct : (w.exposer.bindings.map fun b => catalog.pairClass b.pair).Nodup
  covers : ∀ q, q ∈ w.exposer.bindings.map (fun b => catalog.pairClass b.pair) ↔
    q ∈ pairs.map catalog.pairClass
  numbers : (w.exposer.bindings.map fun b => b.wrapper.number).Nodup
  registered : w.exposer.bindings.length = w.exposer.delegates.size
  works : ∀ b ∈ w.exposer.bindings, b.Works w

variable {catalog} {pairs : List (Shape × FunctionId)} {w u : World}

/-- A pair that has an entry gets its wrapper. -/
theorem bind_of_found {f : FunctionId} {shape : Shape} {b : Binding}
    (h : w.exposer.bindings.find? (fun b =>
      b.shape.same catalog.identity shape && b.function == f) = some b) :
    (catalog.bind f shape : Run Error Callable) w = some (.ok b.wrapper, w) := by
  rw [Catalog.bind, bind_ok (read_apply _ w), h]
  rfl

/-- A pair that has no entry gets a new wrapper. -/
theorem bind_of_unbound {f : FunctionId} {shape : Shape}
    (h : w.exposer.bindings.find? (fun b =>
      b.shape.same catalog.identity shape && b.function == f) = none) :
    (catalog.bind f shape : Run Error Callable) w =
      some (.ok ⟨w.callables.size, shape⟩, w.withWrapper f shape) := by
  rw [Catalog.bind, bind_ok (read_apply _ w), h]
  rfl

namespace Bound

theorem init (settings : Settings) : catalog.Bound [] (World.start settings) where
  distinct := List.nodup_nil
  covers _ := Iff.rfl
  numbers := List.nodup_nil
  registered := rfl
  works _ h := by cases h

/-- Two entries with one pair are the same entry. -/
theorem eq_of_pair (hw : catalog.Bound pairs w) {a b : Binding} (ha : a ∈ w.exposer.bindings)
    (hb : b ∈ w.exposer.bindings) (h : catalog.pairClass a.pair = catalog.pairClass b.pair) :
    a = b :=
  List.inj_on_of_nodup_map hw.distinct ha hb h

/-- Two entries with one wrapper are the same entry. -/
theorem eq_of_number (hw : catalog.Bound pairs w) {a b : Binding} (ha : a ∈ w.exposer.bindings)
    (hb : b ∈ w.exposer.bindings) (h : a.wrapper.number = b.wrapper.number) : a = b :=
  List.inj_on_of_nodup_map hw.numbers ha hb h

/-- There are as many entries as distinct pairs. -/
theorem length_bindings (hw : catalog.Bound pairs w) :
    w.exposer.bindings.length = (catalog.distinctPairs pairs).card := by
  have hclasses : catalog.distinctPairs pairs =
      (w.exposer.bindings.map fun b => catalog.pairClass b.pair).toFinset := by
    ext q
    rw [distinctPairs, List.mem_toFinset, List.mem_toFinset, hw.covers]
  rw [hclasses, List.toFinset_card_of_nodup hw.distinct, List.length_map]

/-- A pair that is wrapped once more is not a new one. -/
theorem again (hw : catalog.Bound pairs w) {b : Binding} (hb : b ∈ w.exposer.bindings)
    {p : Shape × FunctionId} (hp : catalog.pairClass b.pair = catalog.pairClass p) :
    catalog.Bound (pairs ++ [p]) w := by
  refine { hw with covers := fun q => ?_ }
  rw [hw.covers, List.map_append, List.mem_append, List.map_singleton, List.mem_singleton]
  refine ⟨.inl, fun h => h.elim id ?_⟩
  rintro rfl
  exact (hw.covers _).1 (List.mem_map.2 ⟨b, hb, hp⟩)

/-- A pair without an entry gets one, with a new wrapper. -/
theorem add (hw : catalog.Bound pairs w) {f : FunctionId} {shape : Shape}
    (hnew : catalog.pairClass (shape, f) ∉
      w.exposer.bindings.map fun b => catalog.pairClass b.pair) :
    catalog.Bound (pairs ++ [(shape, f)]) (w.withWrapper f shape) where
  distinct := by
    rw [World.withWrapper, List.map_append, List.map_singleton, ← List.concat_eq_append]
    exact hw.distinct.concat hnew
  covers q := by
    rw [World.withWrapper, List.map_append, List.mem_append, hw.covers, List.map_append,
      List.mem_append]
    rfl
  -- The new number is the first that is free, and those of the old wrappers are taken.
  numbers := by
    rw [World.withWrapper, List.map_append, List.map_singleton, ← List.concat_eq_append]
    refine hw.numbers.concat fun h => ?_
    obtain ⟨b, hb, hnumber⟩ := List.mem_map.1 h
    exact absurd hnumber (Nat.ne_of_lt (hw.works b hb).made)
  registered := by
    rw [World.withWrapper, List.length_append, hw.registered, Delegates.size_add]
    rfl
  works b hb := by
    rcases List.mem_append.1 hb with hb | hb
    · exact (hw.works b hb).withWrapper f shape
    · cases List.mem_singleton.1 hb
      exact .made_withWrapper w f shape

/-- The table is in step as long as it, the callables and the register are the same. -/
theorem congr (hw : catalog.Bound pairs w) (hbindings : u.exposer.bindings = w.exposer.bindings)
    (hcallables : u.callables = w.callables)
    (hdelegates : u.exposer.delegates = w.exposer.delegates) : catalog.Bound pairs u := by
  obtain ⟨hdistinct, hcovers, hnumbers, hregistered, hworks⟩ := hw
  rw [← hbindings] at hdistinct hcovers hnumbers hregistered hworks
  rw [← hdelegates] at hregistered
  refine ⟨hdistinct, hcovers, hnumbers, hregistered, fun b hb => ?_⟩
  obtain ⟨hshape, hmade, hcalls⟩ := hworks b hb
  rw [← hcallables] at hmade hcalls
  rw [← hdelegates] at hcalls
  exact ⟨hshape, hmade, hcalls⟩

/-- A move that leaves the table leaves what its wrappers need. -/
theorem of_move (hw : catalog.Bound pairs w) (h : catalog.Move w u)
    (hidle : u.exposer.bindings = w.exposer.bindings) : catalog.Bound pairs u := by
  cases h with
  | bind =>
    -- This one makes the table longer.
    have hlength := congrArg List.length hidle
    simp at hlength
  | newCallable body => exact { hw with works := fun b hb => (hw.works b hb).newCallable body }
  | _ => exact hw.congr hidle rfl rfl

theorem of_adjusts (hw : catalog.Bound pairs w) (h : w.Adjusts u) : catalog.Bound pairs u := by
  obtain ⟨_, _, _, _, rfl⟩ := h
  exact hw.congr rfl rfl rfl

/-- A pair for which no entry is found has none. -/
theorem not_mem_of_unbound {bindings : List Binding} {f : FunctionId} {shape : Shape}
    (h : bindings.find? (fun b => b.shape.same catalog.identity shape && b.function == f) = none) :
    catalog.pairClass (shape, f) ∉ bindings.map fun b => catalog.pairClass b.pair := by
  intro hmem
  obtain ⟨b, hb, hpair⟩ := List.mem_map.1 hmem
  obtain ⟨hshape, hfunction⟩ := pairClass_eq_iff.1 hpair
  refine List.find?_eq_none.1 h b hb ?_
  rw [Bool.and_eq_true, beq_iff_eq]
  exact ⟨hshape, hfunction⟩

/-- The entry that is found for a pair is one of the pair. -/
theorem of_found {bindings : List Binding} {f : FunctionId} {shape : Shape} {b : Binding}
    (h : bindings.find? (fun b =>
      b.shape.same catalog.identity shape && b.function == f) = some b) :
    b ∈ bindings ∧ catalog.pairClass b.pair = catalog.pairClass (shape, f) := by
  have hsame := List.find?_some h
  rw [Bool.and_eq_true, beq_iff_eq] at hsame
  exact ⟨List.mem_of_find?_eq_some h, pairClass_eq_iff.2 hsame⟩

/-- Wrapping a pair gives the wrapper of its entry, which is there from then on. -/
theorem bind (hw : catalog.Bound pairs w) (f : FunctionId) (shape : Shape) :
    ∃ b w', (catalog.bind f shape : Run Error Callable) w = some (.ok b.wrapper, w') ∧
      b ∈ w'.exposer.bindings ∧ catalog.pairClass b.pair = catalog.pairClass (shape, f) ∧
      catalog.Bound (pairs ++ [(shape, f)]) w' := by
  cases hfound : w.exposer.bindings.find? fun b =>
      b.shape.same catalog.identity shape && b.function == f with
  | some b =>
    obtain ⟨hb, hpair⟩ := of_found hfound
    exact ⟨b, w, bind_of_found hfound, hb, hpair, hw.again hb hpair⟩
  | none =>
    refine ⟨⟨shape, f, ⟨w.callables.size, shape⟩⟩, _, bind_of_unbound hfound, ?_, rfl,
      hw.add (not_mem_of_unbound hfound)⟩
    exact List.mem_append_right _ (List.mem_singleton_self _)

/-- Wrapping a pair that has an entry gives the wrapper of the entry and changes nothing. -/
theorem bind_of_mem (hw : catalog.Bound pairs w) {b : Binding} (hb : b ∈ w.exposer.bindings)
    {f : FunctionId} {shape : Shape}
    (hpair : catalog.pairClass b.pair = catalog.pairClass (shape, f)) :
    (catalog.bind f shape : Run Error Callable) w = some (.ok b.wrapper, w) := by
  cases hfound : w.exposer.bindings.find? fun b =>
      b.shape.same catalog.identity shape && b.function == f with
  | some found =>
    obtain ⟨hmem, hsame⟩ := of_found hfound
    obtain rfl := hw.eq_of_pair hmem hb (hsame.trans hpair.symm)
    exact bind_of_found hfound
  | none => exact absurd (List.mem_map.2 ⟨b, hb, hpair⟩) (not_mem_of_unbound hfound)

end Bound

/-! ## Histories of wrapping -/

variable (catalog) in
/-- A history in which these pairs were wrapped, in this order. Between two wrappings the session
may do whatever does not wrap. -/
inductive Wraps (start : World) : List (Shape × FunctionId) → World → Prop
  | start : Wraps start [] start
  | wrap {pairs : List (Shape × FunctionId)} {w w' : World} {f : FunctionId} {shape : Shape}
      {c : Callable} (before : Wraps start pairs w)
      (done : (catalog.bind f shape : Run Error Callable) w = some (.ok c, w')) :
      Wraps start (pairs ++ [(shape, f)]) w'
  | move {pairs : List (Shape × FunctionId)} {w w' : World} (before : Wraps start pairs w)
      (move : catalog.Move w w') (idle : w'.exposer.bindings = w.exposer.bindings) :
      Wraps start pairs w'
  | adjust {pairs : List (Shape × FunctionId)} {w w' : World} (before : Wraps start pairs w)
      (adjust : w.Adjusts w') : Wraps start pairs w'

/-- A move leaves the table, or makes a wrapper for a pair that has no entry. -/
theorem Move.idle_or_wraps (h : catalog.Move w u) :
    u.exposer.bindings = w.exposer.bindings ∨
      ∃ f shape, w.exposer.bindings.find? (fun b =>
        b.shape.same catalog.identity shape && b.function == f) = none ∧
          u = w.withWrapper f shape := by
  cases h with
  | @bind f shape unbound => exact .inr ⟨f, shape, unbound, rfl⟩
  | _ => exact .inl rfl

/-- A move that makes a wrapper wraps a pair. -/
theorem exists_wraps_of_move {start : World} (hw : catalog.Wraps start pairs w)
    (h : catalog.Move w u) : ∃ pairs', catalog.Wraps start pairs' u := by
  rcases h.idle_or_wraps with hidle | ⟨f, shape, unbound, rfl⟩
  · exact ⟨pairs, .move hw h hidle⟩
  · exact ⟨pairs ++ [(shape, f)], .wrap hw (bind_of_unbound unbound)⟩

/-- Every state that a session passes through is at the end of a history of wrapping. -/
theorem exists_wraps_of_visits {start : World} (hw : Session.Visits catalog start w) :
    ∃ pairs, catalog.Wraps start pairs w := by
  refine hw.invariant (P := fun w => ∃ pairs, catalog.Wraps start pairs w) ?_ ?_ ⟨[], .start⟩
  · rintro w w' hmove ⟨pairs, hw⟩
    exact exists_wraps_of_move hw hmove
  · rintro w w' hadjust ⟨pairs, hw⟩
    exact ⟨pairs, .adjust hw hadjust⟩

/-- A history of wrapping leaves the table in step with the pairs. -/
theorem Wraps.bound {settings : Settings} (h : catalog.Wraps (World.start settings) pairs w) :
    catalog.Bound pairs w := by
  induction h with
  | start => exact .init settings
  | @wrap pairs w w' f shape c _ done ih =>
    obtain ⟨b, w₁, hrun, -, -, hbound⟩ := ih.bind f shape
    rw [hrun] at done
    cases done
    exact hbound
  | move _ hmove idle ih => exact ih.of_move hmove idle
  | adjust _ hadjust ih => exact ih.of_adjusts hadjust

/-- In all later states the entries are still there, and the table is in step with the pairs that
were wrapped by then. -/
theorem Bound.later (hw : catalog.Bound pairs w) (hu : Session.Visits catalog w u) :
    (∃ pairs', catalog.Bound pairs' u) ∧ ∀ b ∈ w.exposer.bindings, b ∈ u.exposer.bindings := by
  refine hu.invariant (P := fun u => (∃ pairs', catalog.Bound pairs' u) ∧
    ∀ b ∈ w.exposer.bindings, b ∈ u.exposer.bindings) ?_ ?_ ⟨⟨pairs, hw⟩, fun b hb => hb⟩
  · rintro u u' hmove ⟨⟨pairs', hbound⟩, hmem⟩
    rcases hmove.idle_or_wraps with hidle | ⟨f, shape, unbound, rfl⟩
    · refine ⟨⟨pairs', hbound.of_move hmove hidle⟩, fun b hb => ?_⟩
      rw [hidle]
      exact hmem b hb
    · refine ⟨⟨_, hbound.add (Bound.not_mem_of_unbound unbound)⟩, fun b hb => ?_⟩
      exact List.mem_append_left _ (hmem b hb)
  · rintro u u' hadjust ⟨⟨pairs', hbound⟩, hmem⟩
    refine ⟨⟨pairs', hbound.of_adjusts hadjust⟩, ?_⟩
    obtain ⟨_, _, _, _, rfl⟩ := hadjust
    exact hmem

variable (catalog) in
/-- Calls a script function with native arguments, as a callable of a shape does. -/
def relay (r : Reentry) (f : FunctionId) (shape : Shape) (args : List NativeValue) :
    Run Error NativeValue := do
  Run.requireAlive
  let values ← catalog.callbackArguments shape.params args
  let result ← r.callFunction f .undefined values
  if shape.result.isVoid then return .null else catalog.toNative r shape.result result

/-- Calling a wrapper calls the function of its entry. -/
theorem invoke_wrapper {b : Binding} (hb : b.Works w) (r : Reentry) (args : List NativeValue) :
    catalog.invoke r b.wrapper args w =
      (catalog.relay r b.function b.wrapper.shape args).lift w := by
  obtain ⟨number, -, hbody, hfunction⟩ := hb.calls
  -- The two differ only where the function is looked up.
  have hcall : catalog.callDelegate r b.wrapper.shape number args w =
      catalog.relay r b.function b.wrapper.shape args w := by
    unfold callDelegate relay
    cases halive : w.exposer.alive with
    | false =>
      have hdisposed := requireAlive_of_disposed halive
      rw [bind_error hdisposed, bind_error hdisposed]
    | true =>
      rw [bind_ok (requireAlive_of_alive halive), bind_ok (requireAlive_of_alive halive),
        bind_ok (read_apply _ w), hfunction]
  rw [invoke, bind_ok (read_apply _ w), hbody]
  show (catalog.callDelegate r b.wrapper.shape number args w).bind _ = _
  rw [hcall]
  rfl

/-- Each pair of a shape and a script function has one wrapper. Every state that a session passes
through is at the end of a history of wrapping; and at the end of every such history the table has
no two entries for one pair, it has as many entries as there are registered functions and distinct
pairs, and wrapping any pair gives a wrapper that from then on calls the function of the pair, and
that is given for those pairs exactly that count as one with it. -/
theorem one_wrapper_per_pair (catalog : Catalog) (settings : Settings) :
    (∀ w, Session.Visits catalog (World.start settings) w →
      ∃ pairs, catalog.Wraps (World.start settings) pairs w) ∧
    ∀ pairs w, catalog.Wraps (World.start settings) pairs w →
      (w.exposer.bindings.Pairwise fun a b =>
        ¬ (a.shape.same catalog.identity b.shape = true ∧ a.function = b.function)) ∧
      w.exposer.bindings.length = (catalog.distinctPairs pairs).card ∧
      w.exposer.delegates.size = (catalog.distinctPairs pairs).card ∧
      ∀ f shape, ∃ c w', (catalog.bind f shape : Run Error Callable) w = some (.ok c, w') ∧
        c.shape.same catalog.identity shape = true ∧
        ∀ u, Session.Visits catalog w' u →
          (∀ r args, catalog.invoke r c args u = (catalog.relay r f c.shape args).lift u) ∧
          ∀ g shape', ∃ c' u',
            (catalog.bind g shape' : Run Error Callable) u = some (.ok c', u') ∧
            (c' = c ↔ shape'.same catalog.identity shape = true ∧ g = f) ∧
            (c'.number = c.number → c' = c) := by
  refine ⟨fun w hw => exists_wraps_of_visits hw, fun pairs w hw => ?_⟩
  have hbound := hw.bound
  refine ⟨?_, hbound.length_bindings, ?_, fun f shape => ?_⟩
  · exact (List.pairwise_map.1 hbound.distinct).imp fun hne hsame =>
      hne (pairClass_eq_iff.2 hsame)
  · rw [← hbound.registered, hbound.length_bindings]
  -- The wrapper that is given is that of an entry, which all later states still have.
  obtain ⟨b, w', hrun, hb, hpair, hbound'⟩ := hbound.bind f shape
  obtain ⟨hshape, hfunction⟩ := pairClass_eq_iff.1 hpair
  have hsame : b.wrapper.shape.same catalog.identity shape = true := by
    rw [(hbound'.works b hb).shape]
    exact hshape
  refine ⟨b.wrapper, w', hrun, hsame, fun u hu => ?_⟩
  obtain ⟨⟨pairs', hu'⟩, hstays⟩ := hbound'.later hu
  refine ⟨fun r args => ?_, fun g shape' => ?_⟩
  · rw [invoke_wrapper (hu'.works b (hstays b hb)), show b.function = f from hfunction]
  -- The entry of the later pair is the old one exactly when the pairs count as one.
  obtain ⟨b', u', hrun', hb', hpair', hbound''⟩ := hu'.bind g shape'
  have hold : b ∈ u'.exposer.bindings :=
    (hu'.later (Session.Visits.start.moves (catalog.moves_bind g shape' hrun').moves)).2 b (hstays b hb)
  have hnumber : b'.wrapper.number = b.wrapper.number → b' = b := hbound''.eq_of_number hb' hold
  refine ⟨b'.wrapper, u', hrun', ⟨fun h => ?_, fun h => ?_⟩, fun h => ?_⟩
  · have heq := hnumber (congrArg Callable.number h)
    rw [heq, hpair] at hpair'
    exact pairClass_eq_iff.1 hpair'.symm
  · rw [hbound''.eq_of_pair hb' hold (hpair'.trans ((pairClass_eq_iff.2 h).trans hpair.symm))]
  · rw [hnumber h]

/-- Two declarations of one type of guests. -/
def guests : Catalog where
  decls :=
    [{ (default : ClassDecl) with identity := ⟨1⟩, name := "Guest" },
      { (default : ClassDecl) with identity := ⟨1⟩, name := "Visitor" }]
  restsOn := by decide

/-- What takes a list of guests, named by one of the declarations. -/
def welcome (guest : ClassRef) : Shape :=
  ⟨"welcome", [.fixed "who" (.array (.object guest))], .void⟩

/-- The two forms of welcoming guests are the same. -/
theorem welcome_same (guest other : ClassRef) (h : guests.sameType guest other = true) :
    (welcome guest).same guests.identity (welcome other) = true := by
  simpa [welcome, Shape.same, sameParams, Param.same, NativeType.same, sameType] using h

/-- Three wrappings of two functions make two wrappers, as one pair comes in two forms. -/
theorem guests_one_wrapper_per_pair :
    ∃ w c, guests.Wraps (World.start {}) [(welcome ⟨0⟩, ⟨0⟩), (welcome ⟨1⟩, ⟨0⟩),
        (welcome ⟨0⟩, ⟨1⟩)] w ∧
      w.exposer.bindings.length = 2 ∧
      (guests.bind ⟨0⟩ (welcome ⟨1⟩) : Run Error Callable) w = some (.ok c, w) ∧
      ∀ r args, guests.invoke r c args w = (guests.relay r ⟨0⟩ c.shape args).lift w := by
  have hsame : (welcome ⟨0⟩).same guests.identity (welcome ⟨1⟩) = true := welcome_same _ _ rfl
  let kept : Binding := ⟨welcome ⟨0⟩, ⟨0⟩, ⟨0, welcome ⟨0⟩⟩⟩
  let w₁ := (World.start {}).withWrapper ⟨0⟩ (welcome ⟨0⟩)
  let w₂ := w₁.withWrapper ⟨1⟩ (welcome ⟨0⟩)
  -- The first wrapping makes a wrapper, the second finds it, the third makes another.
  have hfirst : (guests.bind ⟨0⟩ (welcome ⟨0⟩) : Run Error Callable) (World.start {}) =
      some (.ok kept.wrapper, w₁) := bind_of_unbound rfl
  have hagain : (guests.bind ⟨0⟩ (welcome ⟨1⟩) : Run Error Callable) w₁ =
      some (.ok kept.wrapper, w₁) :=
    bind_of_found (by simp [w₁, kept, World.withWrapper, World.start, hsame])
  have hother : (guests.bind ⟨1⟩ (welcome ⟨0⟩) : Run Error Callable) w₁ =
      some (.ok ⟨1, welcome ⟨0⟩⟩, w₂) :=
    bind_of_unbound (by simp [w₁, World.withWrapper, World.start])
  have hfound : (guests.bind ⟨0⟩ (welcome ⟨1⟩) : Run Error Callable) w₂ =
      some (.ok kept.wrapper, w₂) :=
    bind_of_found (by simp [w₁, w₂, kept, World.withWrapper, World.start, hsame])
  have hwraps := Wraps.wrap (Wraps.wrap (Wraps.wrap .start hfirst) hagain) hother
  obtain ⟨-, -, -, hbind⟩ := (one_wrapper_per_pair guests {}).2 _ _ hwraps
  obtain ⟨c, w', hrun, -, hlater⟩ := hbind ⟨0⟩ (welcome ⟨1⟩)
  cases hfound.symm.trans hrun
  exact ⟨w₂, kept.wrapper, hwraps, rfl, hfound, (hlater _ .start).1⟩

end Catalog

end ScriptBoundary
