import Mathlib.Data.List.Forall2
import Mathlib.Order.Defs.Unbundled
import ScriptBoundary.Store.World

/-!
# Laws of computations

A computation takes a state to an outcome and a state, or to nothing when the allowance is used up.
The equations here say what each building block makes of a given state, so that a computation is run
step by step: `bind_ok` goes past a step that succeeds, `bind_cases` takes apart a run that came to
an outcome. `Within R` says of a computation that it moves the state along a relation `R` whatever
comes of it, and is kept by every way of putting computations together.
-/

namespace ScriptBoundary

/-- A pure computation goes on from where its first step succeeded. -/
@[simp] theorem ok_bind {ε α β : Type} (a : α) (f : α → Except ε β) : (.ok a >>= f) = f a := rfl

/-- A pure computation that succeeded went on from where its first step succeeded. -/
theorem exists_of_bind_eq_ok {ε α β : Type} {x : Except ε α} {f : α → Except ε β} {b : β}
    (h : (x >>= f) = .ok b) : ∃ a, x = .ok a ∧ f a = .ok b := by
  cases x with
  | error e => cases h
  | ok a => exact ⟨a, rfl, h⟩

/-- A pure computation that failed did so in its first step or from where that succeeded. -/
theorem error_cases_of_bind {ε α β : Type} {x : Except ε α} {f : α → Except ε β} {e : ε}
    (h : (x >>= f) = .error e) : x = .error e ∨ ∃ a, x = .ok a ∧ f a = .error e := by
  cases x with
  | error e' =>
    cases h
    exact .inl rfl
  | ok a => exact .inr ⟨a, rfl, h⟩

/-- Something made of a pure result that succeeded. -/
theorem exists_of_map_eq_ok {ε α β : Type} {x : Except ε α} {f : α → β} {b : β}
    (h : x.map f = .ok b) : ∃ a, x = .ok a ∧ f a = b := by
  cases x with
  | error e => cases h
  | ok a =>
    cases h
    exact ⟨a, rfl, rfl⟩

/-- Something made of a pure result that failed. -/
theorem error_of_map_eq_error {ε α β : Type} {x : Except ε α} {f : α → β} {e : ε}
    (h : x.map f = .error e) : x = .error e := by
  cases x with
  | error e' =>
    cases h
    rfl
  | ok a => cases h

/-- Pure steps that all succeeded stand in pairs with their results. -/
theorem exists_pairs_of_mapM_eq_ok {ε α β : Type} {f : α → Except ε β} {l : List α} {bs : List β}
    (h : l.mapM f = .ok bs) :
    ∃ pairs : List (α × β), l = pairs.map (·.1) ∧ bs = pairs.map (·.2) ∧
      ∀ p ∈ pairs, f p.1 = .ok p.2 := by
  induction l generalizing bs with
  | nil =>
    cases h
    exact ⟨[], rfl, rfl, List.forall_mem_nil _⟩
  | cons a l ih =>
    rw [List.mapM_cons] at h
    obtain ⟨b, hb, h⟩ := exists_of_bind_eq_ok h
    obtain ⟨bs, hbs, h⟩ := exists_of_bind_eq_ok h
    cases h
    obtain ⟨pairs, rfl, rfl, hpairs⟩ := ih hbs
    exact ⟨(a, b) :: pairs, rfl, rfl, List.forall_mem_cons.2 ⟨hb, hpairs⟩⟩

/-- Pure steps on the values of entries that all succeeded stand with their results under the keys
of the entries. -/
theorem exists_triples_of_mapM_eq_ok {ε κ α β : Type} {f : α → Except ε β} {l : List (κ × α)}
    {es : List (κ × β)} (h : l.mapM (fun entry => (f entry.2).map (entry.1, ·)) = .ok es) :
    ∃ triples : List (κ × α × β), l = triples.map (fun e => (e.1, e.2.1)) ∧
      es = triples.map (fun e => (e.1, e.2.2)) ∧ ∀ e ∈ triples, f e.2.1 = .ok e.2.2 := by
  obtain ⟨pairs, rfl, rfl, hpairs⟩ := exists_pairs_of_mapM_eq_ok h
  have hresult : ∀ p ∈ pairs, ∃ b, f p.1.2 = .ok b ∧ (p.1.1, b) = p.2 :=
    fun p hp => exists_of_map_eq_ok (hpairs p hp)
  refine ⟨pairs.map fun p => (p.1.1, p.1.2, p.2.2), ?_, ?_, fun e he => ?_⟩
  · rw [List.map_map]
    rfl
  · rw [List.map_map]
    refine List.map_congr_left fun p hp => ?_
    obtain ⟨b, -, hb⟩ := hresult p hp
    rw [Function.comp_apply, ← hb]
  · obtain ⟨p, hp, rfl⟩ := List.mem_map.1 he
    obtain ⟨b, hfb, hb⟩ := hresult p hp
    rw [← hb]
    exact hfb

/-- A result of pure steps that all succeeded is that of one of them. -/
theorem exists_mem_of_mapM_eq_ok {ε α β : Type} {f : α → Except ε β} {l : List α} {bs : List β}
    (h : l.mapM f = .ok bs) {b : β} (hb : b ∈ bs) : ∃ a ∈ l, f a = .ok b := by
  obtain ⟨pairs, rfl, rfl, hpairs⟩ := exists_pairs_of_mapM_eq_ok h
  obtain ⟨p, hp, rfl⟩ := List.mem_map.1 hb
  exact ⟨p.1, List.mem_map_of_mem hp, hpairs p hp⟩

/-- Pure steps that all succeeded have a result for each of them. -/
theorem exists_result_of_mapM_eq_ok {ε α β : Type} {f : α → Except ε β} {l : List α} {bs : List β}
    (h : l.mapM f = .ok bs) {a : α} (ha : a ∈ l) : ∃ b ∈ bs, f a = .ok b := by
  obtain ⟨pairs, rfl, rfl, hpairs⟩ := exists_pairs_of_mapM_eq_ok h
  obtain ⟨p, hp, rfl⟩ := List.mem_map.1 ha
  exact ⟨p.2, List.mem_map_of_mem hp, hpairs p hp⟩

/-- Of pure steps that did not all succeed, one failed with the error. -/
theorem exists_mem_of_mapM_eq_error {ε α β : Type} {f : α → Except ε β} {l : List α} {e : ε}
    (h : l.mapM f = .error e) : ∃ a ∈ l, f a = .error e := by
  induction l with
  | nil => cases h
  | cons a l ih =>
    rw [List.mapM_cons] at h
    rcases error_cases_of_bind h with ha | ⟨b, -, h⟩
    · exact ⟨a, List.mem_cons_self, ha⟩
    · rcases error_cases_of_bind h with hl | ⟨bs, -, h⟩
      · obtain ⟨a', ha', he⟩ := ih hl
        exact ⟨a', List.mem_cons_of_mem _ ha', he⟩
      · cases h

/-- Pure steps that each succeed all succeed. -/
theorem exists_mapM_eq_ok {ε α β : Type} {f : α → Except ε β} {l : List α}
    (h : ∀ a ∈ l, ∃ b, f a = .ok b) : ∃ bs, l.mapM f = .ok bs := by
  cases hl : l.mapM f with
  | ok bs => exact ⟨bs, rfl⟩
  | error e =>
    obtain ⟨a, ha, he⟩ := exists_mem_of_mapM_eq_error hl
    obtain ⟨b, hb⟩ := h a ha
    rw [he] at hb
    cases hb

namespace Run

variable {ε ε' α β : Type} {w w' : World}

/-! ## One step -/

@[simp] theorem pure_apply (a : α) (w : World) : (pure a : Run ε α) w = some (.ok a, w) := rfl

@[simp] theorem read_apply (f : World → α) (w : World) :
    (read f : Run ε α) w = some (.ok (f w), w) := rfl

@[simp] theorem ofHeap_apply (f : Heap → α) (w : World) :
    (ofHeap f : Run ε α) w = some (.ok (f w.heap), w) := rfl

@[simp] theorem onHeap_apply (f : Heap → Heap × α) (w : World) :
    (onHeap f : Run ε α) w = some (.ok (f w.heap).2, { w with heap := (f w.heap).1 }) := rfl

@[simp] theorem ofExcept_ok_bind (a : α) (f : α → Run ε β) : (ofExcept (.ok a) >>= f) = f a := rfl

/-- A pure step that succeeded has changed nothing. -/
theorem ofConversion_ok {x : Except ConversionError α} {a : α}
    (h : ofConversion x w = some (.ok a, w')) : x = .ok a ∧ w = w' := by
  cases x with
  | error e => cases h
  | ok b =>
    cases h
    exact ⟨rfl, rfl⟩

/-- A computation goes on from where its first step succeeded. -/
theorem bind_ok {x : Run ε α} {a : α} (h : x w = some (.ok a, w')) (f : α → Run ε β) :
    (x >>= f) w = f a w' := by
  show (x w).bind _ = f a w'
  rw [h]
  rfl

/-- A computation ends where its first step failed. -/
theorem bind_error {x : Run ε α} {e : ε} (h : x w = some (.error e, w')) (f : α → Run ε β) :
    (x >>= f) w = some (.error e, w') := by
  show (x w).bind _ = _
  rw [h]
  rfl

/-- Computations that agree on a state agree there with whatever comes next. -/
theorem bind_congr_apply {x y : Run ε α} (h : x w = y w) (f : α → Run ε β) :
    (x >>= f) w = (y >>= f) w := by
  show (x w).bind _ = (y w).bind _
  rw [h]

/-- A step with two ways to go on that agree wherever it succeeds. -/
theorem bind_congr_ok {x : Run ε α} {f g : α → Run ε β}
    (h : ∀ a w', x w = some (.ok a, w') → f a w' = g a w') : (x >>= f) w = (x >>= g) w := by
  show (x w).bind _ = (x w).bind _
  rcases hx : x w with _ | ⟨_ | a, w'⟩
  · rfl
  · rfl
  · exact h a w' hx

/-- A step that succeeds, with something made of its result. -/
theorem map_ok {x : Run ε α} {a : α} (h : x w = some (.ok a, w')) (f : α → β) :
    (f <$> x) w = some (.ok (f a), w') :=
  bind_ok h _

/-- A run that came to an outcome failed at its first step, or went on from where that succeeded. -/
theorem bind_cases {x : Run ε α} {f : α → Run ε β} {r : Except ε β}
    (h : (x >>= f) w = some (r, w')) :
    (∃ e, x w = some (.error e, w') ∧ r = .error e) ∨
      ∃ a w₁, x w = some (.ok a, w₁) ∧ f a w₁ = some (r, w') := by
  cases hx : x w with
  | none =>
    change (x w).bind _ = _ at h
    rw [hx] at h
    cases h
  | some p =>
    obtain ⟨outcome, w₁⟩ := p
    cases outcome with
    | error e =>
      rw [bind_error hx] at h
      cases h
      exact .inl ⟨e, rfl, rfl⟩
    | ok a =>
      rw [bind_ok hx] at h
      exact .inr ⟨a, w₁, rfl, h⟩

/-- The outcomes of a computation, by those of its first step. -/
theorem bind_eq_some_iff {x : Run ε α} {f : α → Run ε β} {r : Except ε β} :
    (x >>= f) w = some (r, w') ↔
      (∃ e, x w = some (.error e, w') ∧ r = .error e) ∨
        ∃ a w₁, x w = some (.ok a, w₁) ∧ f a w₁ = some (r, w') := by
  refine ⟨bind_cases, ?_⟩
  rintro (⟨e, hx, rfl⟩ | ⟨a, w₁, hx, hf⟩)
  · exact bind_error hx f
  · rw [bind_ok hx, hf]

/-- The outcomes of a step with something made of its result. -/
theorem map_eq_some_iff {x : Run ε α} {f : α → β} {r : Except ε β} :
    (f <$> x) w = some (r, w') ↔ ∃ r', x w = some (r', w') ∧ r = r'.map f := by
  show (x >>= fun a => pure (f a)) w = _ ↔ _
  rw [bind_eq_some_iff]
  constructor
  · rintro (⟨e, hx, rfl⟩ | ⟨a, w₁, hx, hf⟩)
    · exact ⟨.error e, hx, rfl⟩
    · cases hf
      exact ⟨.ok a, hx, rfl⟩
  · rintro ⟨e | a, hx, rfl⟩
    · exact .inl ⟨e, hx, rfl⟩
    · exact .inr ⟨a, w', hx, rfl⟩

/-- A run that succeeded went on from where its first step succeeded. -/
theorem bind_ok_cases {x : Run ε α} {f : α → Run ε β} {b : β}
    (h : (x >>= f) w = some (.ok b, w')) :
    ∃ a w₁, x w = some (.ok a, w₁) ∧ f a w₁ = some (.ok b, w') := by
  rcases bind_cases h with ⟨e, -, he⟩ | h
  · cases he
  · exact h

/-- The outcome of a step is handed over. -/
theorem attempt_some {x : Run ε α} {r : Except ε α} (h : x w = some (r, w')) :
    (x.attempt : Run ε' (Except ε α)) w = some (.ok r, w') := by
  show (x w).bind _ = _
  rw [h]
  rfl

/-- What follows an attempt goes on from where the attempted step ended. -/
theorem attempt_bind_cases {x : Run ε α} {f : Except ε α → Run ε' β} {r : Except ε' β}
    (h : (x.attempt >>= f) w = some (r, w')) :
    ∃ outcome w₁, x w = some (outcome, w₁) ∧ f outcome w₁ = some (r, w') := by
  cases hx : x w with
  | none =>
    change ((x w).bind _).bind _ = _ at h
    rw [hx] at h
    cases h
  | some p =>
    obtain ⟨outcome, w₁⟩ := p
    rw [bind_ok (attempt_some hx)] at h
    exact ⟨outcome, w₁, rfl, h⟩

/-- The outcome of a step with another form of its error. -/
theorem mapError_some {x : Run ε α} {r : Except ε α} (h : x w = some (r, w')) (f : ε → ε') :
    x.mapError f w = some (r.mapError f, w') := by
  show (x w).bind _ = _
  rw [h]
  rfl

/-- What ends with another form of its errors ends in the same state. -/
theorem mapError_cases {x : Run ε α} {f : ε → ε'} {r' : Except ε' α}
    (h : x.mapError f w = some (r', w')) : ∃ r, x w = some (r, w') ∧ r' = r.mapError f := by
  cases hx : x w with
  | none =>
    change (x w).bind _ = _ at h
    rw [hx] at h
    cases h
  | some p =>
    obtain ⟨r, w₁⟩ := p
    rw [mapError_some hx] at h
    cases h
    exact ⟨r, rfl, rfl⟩

/-- What succeeds with another form of its errors succeeds. -/
theorem ok_of_mapError {x : Run ε α} {f : ε → ε'} {a : α} (h : x.mapError f w = some (.ok a, w')) :
    x w = some (.ok a, w') := by
  obtain ⟨r, hx, hr⟩ := mapError_cases h
  cases r with
  | error e => cases hr
  | ok b =>
    cases hr
    exact hx

/-- The form of errors is changed step by step. -/
theorem mapError_bind (x : Run ε α) (f : α → Run ε β) (g : ε → ε') :
    (x >>= f).mapError g = x.mapError g >>= fun a => (f a).mapError g := by
  funext w
  cases hx : x w with
  | none =>
    show ((x w).bind _).bind _ = ((x w).bind _).bind _
    rw [hx]
    rfl
  | some p =>
    obtain ⟨r, w'⟩ := p
    cases r with
    | error e => rw [mapError_some (bind_error hx f), bind_error (mapError_some hx g)]; rfl
    | ok a =>
      rw [bind_ok (mapError_some hx g)]
      show ((x w).bind _).bind _ = _
      rw [hx]
      rfl

/-! ## Lists of steps -/

/-- Steps that leave the state give the list of their results. -/
theorem mapM_forall₂ {x : α → Run ε β} {l : List α} {bs : List β}
    (h : List.Forall₂ (fun a b => x a w = some (.ok b, w)) l bs) :
    l.mapM x w = some (.ok bs, w) := by
  induction h with
  | nil => rfl
  | cons hab _ ih =>
    rw [List.mapM_cons, bind_ok hab, bind_ok ih]
    rfl

/-- Steps whose success depends on nothing but an invariant, and which leave what they achieve,
succeed together exactly when each does, and then have achieved all. -/
theorem forM_outcome {x : α → Run ε Unit} {l : List α} {I : World → Prop} {P : α → Prop}
    {Q : α → World → Prop}
    (hstep : ∀ a ∈ l, ∀ ⦃w : World⦄ ⦃r : Except ε Unit⦄ ⦃w' : World⦄, I w → x a w = some (r, w') →
      I w' ∧ (r = .ok () ↔ P a) ∧ (r = .ok () → Q a w') ∧ ∀ b, Q b w → Q b w')
    {r : Except ε Unit} (hw : I w) (h : l.forM x w = some (r, w')) :
    I w' ∧ (r = .ok () ↔ ∀ a ∈ l, P a) ∧ (r = .ok () → ∀ a ∈ l, Q a w') ∧
      ∀ b, Q b w → Q b w' := by
  induction l generalizing w with
  | nil =>
    cases h
    exact ⟨hw, by simp, by simp, fun _ => id⟩
  | cons a l ih =>
    have htail := fun b hb => hstep b (List.mem_cons_of_mem _ hb)
    rcases bind_cases h with ⟨e, ha, rfl⟩ | ⟨_, w₁, ha, hrest⟩
    · obtain ⟨hw', hsucceeds, -, hkeeps⟩ := hstep a List.mem_cons_self hw ha
      refine ⟨hw', ⟨?_, fun hall => ?_⟩, ?_, hkeeps⟩
      · rintro ⟨⟩
      · cases hsucceeds.2 (hall a List.mem_cons_self)
      · rintro ⟨⟩
    · obtain ⟨hw₁, hsucceeds, hachieves, hkeeps⟩ := hstep a List.mem_cons_self hw ha
      obtain ⟨hw', hsucceeds', hachieves', hkeeps'⟩ := ih htail hw₁ hrest
      refine ⟨hw', ?_, fun hr => ?_, fun b hb => hkeeps' b (hkeeps b hb)⟩
      · rw [hsucceeds', List.forall_mem_cons]
        exact ⟨fun hall => ⟨hsucceeds.1 rfl, hall⟩, And.right⟩
      · exact List.forall_mem_cons.2 ⟨hkeeps' a (hachieves rfl), hachieves' hr⟩

/-! ## What a success gives -/

/-- What the computation gives when it succeeds has a property. -/
def Gives (P : α → Prop) (x : Run ε α) : Prop :=
  ∀ ⦃w : World⦄ ⦃a : α⦄ ⦃w' : World⦄, x w = some (.ok a, w') → P a

namespace Gives

variable {P : α → Prop} {Q : β → Prop}

theorem pure {a : α} (h : P a) : Gives P (Pure.pure a : Run ε α) := by
  intro w b w' hrun
  cases hrun
  exact h

theorem throw (e : ε) : Gives P (MonadExcept.throw e : Run ε α) := by
  intro w a w' h
  cases h

/-- Only what follows a success counts. -/
theorem bind {x : Run ε β} {f : β → Run ε α} (hx : Gives Q x) (hf : ∀ b, Q b → Gives P (f b)) :
    Gives P (x >>= f) := by
  intro w a w' h
  obtain ⟨b, w₁, hb, hrest⟩ := bind_ok_cases h
  exact hf b (hx hb) hrest

/-- What the first step gives may be anything. -/
theorem bind_any {x : Run ε β} {f : β → Run ε α} (hf : ∀ b, Gives P (f b)) : Gives P (x >>= f) :=
  bind (Q := fun _ => True) (fun _ _ _ _ => trivial) fun b _ => hf b

theorem mapError {x : Run ε α} (hx : Gives P x) (f : ε → ε') : Gives P (x.mapError f) :=
  fun _ _ _ h => hx (ok_of_mapError h)

theorem mapM {x : β → Run ε α} {l : List β} (h : ∀ b ∈ l, Gives P (x b)) :
    Gives (fun as => ∀ a ∈ as, P a) (l.mapM x) := by
  induction l with
  | nil => exact pure (List.forall_mem_nil P)
  | cons b l ih =>
    rw [List.mapM_cons]
    refine bind (h b List.mem_cons_self) fun a ha => ?_
    refine bind (ih fun c hc => h c (List.mem_cons_of_mem _ hc)) fun as has => ?_
    exact pure (List.forall_mem_cons.2 ⟨ha, has⟩)

end Gives

/-- From a state with an invariant the computation, when it succeeds, leaves a state with it and
gives something with a property. -/
def Ensures (I : World → Prop) (P : α → Prop) (x : Run ε α) : Prop :=
  ∀ ⦃w : World⦄ ⦃a : α⦄ ⦃w' : World⦄, I w → x w = some (.ok a, w') → I w' ∧ P a

namespace Ensures

variable {I : World → Prop} {P : α → Prop} {Q : β → Prop}

theorem pure {a : α} (h : P a) : Ensures I P (Pure.pure a : Run ε α) := by
  intro w b w' hw hrun
  cases hrun
  exact ⟨hw, h⟩

theorem throw (e : ε) : Ensures I P (MonadExcept.throw e : Run ε α) := by
  intro w a w' hw h
  cases h

theorem ofConversion {x : Except ConversionError α} (h : ∀ a, x = .ok a → P a) :
    Ensures I P (Run.ofConversion x) := by
  intro w a w' hw hrun
  obtain ⟨hx, rfl⟩ := ofConversion_ok hrun
  exact ⟨hw, h a hx⟩

/-- What is read has a property in every state with the invariant. -/
theorem ofHeap {f : Heap → α} (h : ∀ w, I w → P (f w.heap)) :
    Ensures I P (Run.ofHeap f : Run ε α) := by
  intro w a w' hw hrun
  cases hrun
  exact ⟨hw, h w hw⟩

theorem mono {P' : α → Prop} {x : Run ε α} (hx : Ensures I P' x) (h : ∀ a, P' a → P a) :
    Ensures I P x :=
  fun _ _ _ hw hrun => (hx hw hrun).imp id (h _)

theorem bind {x : Run ε β} {f : β → Run ε α} (hx : Ensures I Q x)
    (hf : ∀ b, Q b → Ensures I P (f b)) : Ensures I P (x >>= f) := by
  intro w a w' hw h
  obtain ⟨b, w₁, hb, hrest⟩ := bind_ok_cases h
  obtain ⟨hw₁, hQ⟩ := hx hw hb
  exact hf b hQ hw₁ hrest

/-- Each step of a list ensures what is asked of the result in its place. -/
theorem mapM {x : β → Run ε α} {l : List β} {P : β → α → Prop}
    (h : ∀ b ∈ l, Ensures I (P b) (x b)) : Ensures I (List.Forall₂ P l) (l.mapM x) := by
  induction l with
  | nil => exact pure .nil
  | cons b l ih =>
    rw [List.mapM_cons]
    refine bind (h b List.mem_cons_self) fun a ha => ?_
    refine bind (ih fun c hc => h c (List.mem_cons_of_mem _ hc)) fun as has => ?_
    exact pure (.cons ha has)

end Ensures

/-- Steps that all succeed give as many results as there are steps. -/
theorem length_of_mapM {x : α → Run ε β} {l : List α} {bs : List β}
    (h : l.mapM x w = some (.ok bs, w')) : bs.length = l.length := by
  have hall : Ensures (fun _ => True) (List.Forall₂ (fun _ _ => True) l) (l.mapM x) :=
    .mapM fun _ _ _ _ _ _ _ => ⟨trivial, trivial⟩
  exact (hall trivial h).2.length_eq.symm

/-! ## Coming to an outcome -/

/-- The computation comes to an outcome in every state. -/
def Answers (x : Run ε α) : Prop :=
  ∀ w : World, ∃ (r : Except ε α) (w' : World), x w = some (r, w')

namespace Answers

theorem pure (a : α) : Answers (Pure.pure a : Run ε α) := fun w => ⟨.ok a, w, rfl⟩

theorem read (f : World → α) : Answers (Run.read f : Run ε α) := fun w => ⟨.ok (f w), w, rfl⟩

theorem bind {x : Run ε α} {f : α → Run ε β} (hx : Answers x) (hf : ∀ a, Answers (f a)) :
    Answers (x >>= f) := by
  intro w
  obtain ⟨r, w₁, hw⟩ := hx w
  cases r with
  | error e => exact ⟨.error e, w₁, bind_error hw f⟩
  | ok a =>
    rw [bind_ok hw]
    exact hf a w₁

theorem forM {x : α → Run ε Unit} {l : List α} (h : ∀ a ∈ l, Answers (x a)) :
    Answers (l.forM x) := by
  induction l with
  | nil => exact pure ()
  | cons a l ih =>
    exact bind (h a List.mem_cons_self) fun _ => ih fun b hb => h b (List.mem_cons_of_mem _ hb)

end Answers

/-! ## Moving along a relation -/

/-- Whatever comes of the computation, it moves the state along a relation. -/
def Within (R : World → World → Prop) (x : Run ε α) : Prop :=
  ∀ ⦃w : World⦄ ⦃r : Except ε α⦄ ⦃w' : World⦄, x w = some (r, w') → R w w'

namespace Within

variable {R : World → World → Prop}

/-- A computation that moves along a relation moves along a weaker one. -/
theorem mono {S : World → World → Prop} {x : Run ε α} (hx : Within R x)
    (h : ∀ w w', R w w' → S w w') : Within S x :=
  fun _ _ _ hrun => h _ _ (hx hrun)

theorem exhausted : Within R (Run.exhausted : Run ε α) := by
  intro w r w' h
  cases h

section Reads

variable [Std.Refl R]

theorem pure (a : α) : Within R (Pure.pure a : Run ε α) := by
  intro w r w' h
  cases h
  exact Std.Refl.refl w

theorem throw (e : ε) : Within R (MonadExcept.throw e : Run ε α) := by
  intro w r w' h
  cases h
  exact Std.Refl.refl w

theorem read (f : World → α) : Within R (Run.read f : Run ε α) := by
  intro w r w' h
  cases h
  exact Std.Refl.refl w

theorem ofHeap (f : Heap → α) : Within R (Run.ofHeap f : Run ε α) := read _

theorem ofExcept (x : Except ε α) : Within R (Run.ofExcept x) := by
  intro w r w' h
  cases h
  exact Std.Refl.refl w

end Reads

theorem change {f : World → World} (h : ∀ w, R w (f w)) : Within R (Run.change f : Run ε Unit) := by
  intro w r w' hrun
  cases hrun
  exact h w

theorem onHeap {f : Heap → Heap × α} (h : ∀ w : World, R w { w with heap := (f w.heap).1 }) :
    Within R (Run.onHeap f : Run ε α) := by
  intro w r w' hrun
  cases hrun
  exact h w

theorem attempt {x : Run ε α} (hx : Within R x) :
    Within R (x.attempt : Run ε' (Except ε α)) := by
  intro w r w' h
  cases hw : x w with
  | none =>
    change (x w).bind _ = _ at h
    rw [hw] at h
    cases h
  | some p =>
    obtain ⟨r, w₁⟩ := p
    rw [attempt_some hw] at h
    cases h
    exact hx hw

theorem mapError {x : Run ε α} (hx : Within R x) (f : ε → ε') : Within R (x.mapError f) := by
  intro w r w' h
  obtain ⟨r, hrun, -⟩ := mapError_cases h
  exact hx hrun

section Sequences

variable [IsPreorder World R]

theorem bind {x : Run ε α} {f : α → Run ε β} (hx : Within R x) (hf : ∀ a, Within R (f a)) :
    Within R (x >>= f) := by
  intro w r w' h
  rcases bind_cases h with ⟨e, hw, -⟩ | ⟨a, w₁, hw, hrest⟩
  · exact hx hw
  · exact IsTrans.trans _ _ _ (hx hw) (hf a hrest)

/-- A step that is pure moves nothing, so only what follows its success counts. -/
theorem bind_ofExcept {x : Except ε α} {f : α → Run ε β}
    (hf : ∀ a, x = .ok a → Within R (f a)) : Within R (Run.ofExcept x >>= f) := by
  intro w r w' h
  rcases bind_cases h with ⟨e, hw, -⟩ | ⟨a, w₁, hw, hrest⟩
  · cases hw
    exact Std.Refl.refl w
  · cases hw
    exact hf a rfl hrest

theorem mapM {x : α → Run ε β} {l : List α} (h : ∀ a ∈ l, Within R (x a)) :
    Within R (l.mapM x) := by
  induction l with
  | nil => exact pure []
  | cons a l ih =>
    rw [List.mapM_cons]
    refine bind (h a List.mem_cons_self) fun b => bind ?_ fun bs => pure (b :: bs)
    exact ih fun c hc => h c (List.mem_cons_of_mem _ hc)

theorem forM {x : α → Run ε Unit} {l : List α} (h : ∀ a ∈ l, Within R (x a)) :
    Within R (l.forM x) := by
  induction l with
  | nil => exact pure ()
  | cons a l ih =>
    exact bind (h a List.mem_cons_self) fun _ => ih fun b hb => h b (List.mem_cons_of_mem _ hb)

end Sequences

end Within

end Run

end ScriptBoundary
