import Mathlib.Data.List.Forall2
import ScriptBoundary.Calls.Reentry
import ScriptBoundary.Proofs.Keeping

/-!
# Making script values

A native collection becomes a script value by making the values of its parts one after the other.
`Makes` says of the making of one value that it succeeds, keeps the heap, and that something is true
of the value from then on, as long as the objects made meanwhile stay as they are. This is what
carries over from the parts to an array (`Makes.mapM`) and to the fields of an object
(`Makes.putFields`), whose object is there before its fields and so is not one of theirs.

Making a value may build definitions. Which ones is told beside it, as a computation of its own, and
the making succeeds where that does.

`Leaves` says less, only of a making that succeeded, and so needs no building told. It also speaks
of entries of which several have one key: the property then holds what was made last for it.
-/

namespace ScriptBoundary

open Run

variable {α : Type}

/-- Where the building told succeeds, the making succeeds and keeps the heap, and what is said of
the value holds for every state that keeps what was made. -/
def Makes (builds : Run Error Unit) (make : Run Error ScriptValue)
    (holds : ScriptValue → World → Prop) : Prop :=
  ∀ ⦃w₀ w₁ w : World⦄, w₀.Agree w → builds w₀ = some (.ok (), w₁) →
    ∃ s w', make w = some (.ok s, w') ∧ w₁.Agree w' ∧ w.Keeps w' ∧
      ∀ v : World, w'.heap.Keeps (w.heap.objects.size ≤ ·.index) v.heap → holds s v

namespace Makes

variable {builds : α → Run Error Unit} {make : α → Run Error ScriptValue}
  {holds : α → ScriptValue → World → Prop}

/-- The making of a plain datum. -/
theorem of_pure {make : Run Error ScriptValue} {holds : ScriptValue → World → Prop}
    {s : ScriptValue} (hmake : make = pure s) (hholds : ∀ w, holds s w) :
    Makes (pure ()) make holds := by
  intro w₀ w₁ w h hbuilds
  cases hbuilds
  exact ⟨s, w, by rw [hmake]; rfl, h, Std.Refl.refl w, fun v _ => hholds v⟩

/-- Values made one after the other. -/
theorem mapM {l : List α} (h : ∀ a ∈ l, Makes (builds a) (make a) (holds a))
    ⦃w₀ w₁ w : World⦄ (hagree : w₀.Agree w) (hbuilds : l.forM builds w₀ = some (.ok (), w₁)) :
    ∃ ss w', l.mapM make w = some (.ok ss, w') ∧ w₁.Agree w' ∧ w.Keeps w' ∧
      ∀ v : World, w'.heap.Keeps (w.heap.objects.size ≤ ·.index) v.heap →
        List.Forall₂ (fun a s => holds a s v) l ss := by
  induction l generalizing w₀ w with
  | nil =>
    cases hbuilds
    exact ⟨[], w, rfl, hagree, Std.Refl.refl w, fun _ _ => .nil⟩
  | cons a l ih =>
    obtain ⟨_, u, hhead, htail⟩ := bind_ok_cases hbuilds
    obtain ⟨s, w₂, hmake, hagree₂, hkeeps, hholds⟩ := h a List.mem_cons_self hagree hhead
    obtain ⟨ss, w₃, hmakes, hagree₃, hkeeps₃, hrest⟩ :=
      ih (fun b hb => h b (List.mem_cons_of_mem _ hb)) hagree₂ htail
    refine ⟨s :: ss, w₃, ?_, hagree₃, IsTrans.trans _ _ _ hkeeps hkeeps₃, fun v hv => ?_⟩
    · rw [List.mapM_cons, bind_ok hmake, bind_ok hmakes]
      rfl
    · -- Making the rest keeps all objects, so what was said of the first value still holds.
      refine .cons (hholds v ?_) (hrest v (hv.imp fun o ho => Nat.le_trans hkeeps.objects_le ho))
      exact (Heap.Keeps.of_all hkeeps₃).trans hv

/-- Puts a value on an object as soon as it is made. -/
def putField (make : α → Run Error ScriptValue) (o : ObjectId) (entry : String × α) :
    Run Error Unit := do
  let s ← make entry.2
  Run.onHeap fun h => (h.insert o entry.1 s, ())

/-- Values made one after the other and put on an object that is there already. -/
theorem putFields {entries : List (String × α)}
    (h : ∀ entry ∈ entries, Makes (builds entry.2) (make entry.2) (holds entry.2))
    ⦃w₀ w₁ w : World⦄ (hagree : w₀.Agree w)
    (hbuilds : (entries.forM fun entry => builds entry.2) w₀ = some (.ok (), w₁)) {o : ObjectId}
    (ho : o.index < w.heap.objects.size)
    (hkeys : (Keyed.keys (w.heap.object o).properties ++ Keyed.keys entries).Nodup) :
    ∃ (fields : List (String × ScriptValue)) (w' : World),
      entries.forM (putField make o) w = some (.ok (), w') ∧ w₁.Agree w' ∧
      w.heap.Keeps (· ≠ o) w'.heap ∧
      (w'.heap.object o).properties =
        (w.heap.object o).properties ++ fields.map (fun f => (f.1, .data f.2)) ∧
      ∀ v : World, w'.heap.Keeps (o.index < ·.index) v.heap →
        List.Forall₂ (fun entry field => entry.1 = field.1 ∧ holds entry.2 field.2 v) entries
          fields := by
  induction entries generalizing w₀ w with
  | nil =>
    cases hbuilds
    refine ⟨[], w, rfl, hagree, Heap.Keeps.refl _ _, ?_, fun _ _ => .nil⟩
    rw [List.map_nil, List.append_nil]
  | cons entry entries ih =>
    obtain ⟨key, a⟩ := entry
    obtain ⟨_, u, hhead, htail⟩ := bind_ok_cases hbuilds
    obtain ⟨s, w₂, hmake, hagree₂, hkeeps, hholds⟩ := h _ List.mem_cons_self hagree hhead
    have ho₂ : o.index < w₂.heap.objects.size := Nat.lt_of_lt_of_le ho hkeeps.objects_le
    have hsame : w₂.heap.object o = w.heap.object o := hkeeps.object o trivial ho
    have hkey : key ∉ Keyed.keys (w.heap.object o).properties := by
      intro hmem
      exact (List.nodup_append.1 hkeys).2.2 key hmem key List.mem_cons_self rfl
    -- The key is new, so the field goes behind the others.
    let w₃ : World := { w₂ with heap := w₂.heap.insert o key s }
    have hprops : (w₃.heap.object o).properties =
        (w.heap.object o).properties ++ [(key, .data s)] := by
      show ((w₂.heap.define o key (.data s)).object o).properties = _
      rw [w₂.heap.object_define_self ho₂, hsame, Keyed.put_of_not_mem hkey]
    have hinsert : w₂.heap.Keeps (· ≠ o) w₃.heap := .define _ (fun hne => hne rfl) _ _
    have ho₃ : o.index < w₃.heap.objects.size := Nat.lt_of_lt_of_le ho₂ hinsert.objects_le
    have hkeys₃ : (Keyed.keys (w₃.heap.object o).properties ++ Keyed.keys entries).Nodup := by
      rw [hprops, Keyed.keys, List.map_append, List.append_assoc]
      exact hkeys
    have hagree₃ : u.Agree w₃ := hagree₂.trans (.of_exposer rfl)
    obtain ⟨fields, w₄, hputs, hagree₄, hkeeps₄, hprops₄, hrest⟩ :=
      ih (fun b hb => h b (List.mem_cons_of_mem _ hb)) hagree₃ htail ho₃ hkeys₃
    refine ⟨(key, s) :: fields, w₄, ?_, hagree₄, ?_, ?_, fun v hv => ?_⟩
    · have hput : putField make o (key, a) w = some (.ok (), w₃) := by
        rw [putField, bind_ok hmake]
        rfl
      exact (bind_ok hput _).trans hputs
    · exact ((Heap.Keeps.of_all hkeeps).trans hinsert).trans hkeeps₄
    · rw [hprops₄, hprops, List.append_assoc]
      rfl
    · -- The object that carries the fields was there first, so no value depends on it.
      refine .cons ⟨rfl, hholds v ?_⟩ (hrest v hv)
      have hlater : ∀ p : ObjectId, w.heap.objects.size ≤ p.index → o.index < p.index :=
        fun p hp => Nat.lt_of_lt_of_le ho hp
      have hne : ∀ p : ObjectId, w.heap.objects.size ≤ p.index → p ≠ o := by
        rintro p hp rfl
        exact Nat.lt_irrefl _ (hlater p hp)
      exact ((hinsert.trans hkeeps₄).imp hne).trans (hv.imp hlater)

/-- A fresh array of values that are there. -/
theorem newArray (items : List ScriptValue) :
    Makes (pure ()) (do return .array (← Run.onHeap (·.newArray items)))
      fun s v => ∃ a, s = .array a ∧ v.heap.items a = items := by
  intro w₀ w₁ w hagree hbuilds
  cases hbuilds
  let w₂ : World := { w with heap := (w.heap.newArray items).1 }
  refine ⟨.array (w.heap.newArray items).2, w₂, rfl, hagree.trans (.of_exposer rfl),
    .newArray w.heap items, fun v hv => ⟨_, rfl, ?_⟩⟩
  have hlt : (w.heap.newArray items).2.index < w₂.heap.arrays.size := by
    simp [w₂, Heap.newArray]
  exact (hv.items _ hlt).trans (w.heap.items_newArray items)

/-- A fresh array of values made one after the other. -/
theorem array {l : List α} (h : ∀ a ∈ l, Makes (builds a) (make a) (holds a)) :
    Makes (l.forM builds) (do return .array (← Run.onHeap (·.newArray (← l.mapM make))))
      fun s v => ∃ a, s = .array a ∧ List.Forall₂ (fun b s => holds b s v) l (v.heap.items a) := by
  intro w₀ w₁ w hagree hbuilds
  obtain ⟨ss, w₂, hmakes, hagree₂, hkeeps, hholds⟩ := mapM h hagree hbuilds
  obtain ⟨s, w₃, hnew, hagree₃, hkeeps₃, hitems⟩ := newArray ss hagree₂ rfl
  refine ⟨s, w₃, (bind_ok hmakes _).trans hnew, hagree₃, IsTrans.trans _ _ _ hkeeps hkeeps₃,
    fun v hv => ?_⟩
  obtain ⟨a, hs, ha⟩ := hitems v (hv.imp fun o ho => Nat.le_trans hkeeps.objects_le ho)
  refine ⟨a, hs, ?_⟩
  rw [ha]
  exact hholds v ((Heap.Keeps.of_all hkeeps₃).trans hv)

/-- A fresh object with values made one after the other in its fields. -/
theorem object (builds : α → Run Error Unit) (holds : α → ScriptValue → World → Prop)
    {entries : List (String × α)}
    (h : ∀ entry ∈ entries, Makes (builds entry.2) (make entry.2) (holds entry.2))
    (hkeys : (Keyed.keys entries).Nodup) :
    Makes (entries.forM fun entry => builds entry.2)
      (do
        let o ← Run.onHeap (·.newObject .plain)
        entries.forM (putField make o)
        return .object o)
      fun s v => ∃ (o : ObjectId) (fields : List (String × ScriptValue)), s = .object o ∧
        (v.heap.object o).properties = fields.map (fun f => (f.1, .data f.2)) ∧
        List.Forall₂ (fun entry field => entry.1 = field.1 ∧ holds entry.2 field.2 v) entries
          fields := by
  intro w₀ w₁ w hagree hbuilds
  let o : ObjectId := (w.heap.newObject .plain).2
  let w₂ : World := { w with heap := (w.heap.newObject .plain).1 }
  have hnew : w.Keeps w₂ := .newObject w.heap .plain
  have ho : o.index < w₂.heap.objects.size := by simp [w₂, o, Heap.newObject]
  have hempty : (w₂.heap.object o).properties = [] := by
    rw [w.heap.object_newObject]
    rfl
  have hagree₂ : w₀.Agree w₂ := hagree.trans (.of_exposer rfl)
  obtain ⟨fields, w₃, hputs, hagree₃, hkeeps, hprops, hholds⟩ :=
    putFields h hagree₂ hbuilds ho (by rw [hempty]; exact hkeys)
  rw [hempty, List.nil_append] at hprops
  refine ⟨.object o, w₃, ?_, hagree₃, ?_, fun v hv => ⟨o, fields, rfl, ?_, ?_⟩⟩
  · exact (bind_ok (onHeap_apply _ w) _).trans ((bind_ok hputs _).trans rfl)
  · -- The object that was made is none of those that were there.
    refine ((Heap.Keeps.of_all hnew).trans (hkeeps.imp ?_)).all
    rintro p hp rfl
    exact Nat.lt_irrefl _ hp
  · rw [hv.object o (Nat.le_refl _) (Nat.lt_of_lt_of_le ho hkeeps.objects_le), hprops]
  · exact hholds v (hv.imp fun p hp => Nat.le_of_lt hp)

/-- Entries that were made for keys, one for each, have those keys. -/
theorem keys_of_forall₂ {β : Type} (key : α → String) {l : List α} {entries : List (String × β)}
    (h : List.Forall₂ (fun a entry => key a = entry.1) l entries) :
    Keyed.keys entries = l.map key := by
  have hmaps : List.Forall₂ (· = ·) (l.map key) (Keyed.keys entries) := by
    rw [Keyed.keys, List.forall₂_map_left_iff, List.forall₂_map_right_iff]
    exact h
  exact (List.forall₂_eq_eq_eq ▸ hmaps).symm

/-- Fields made from entries have distinct keys when the entries do. -/
theorem nodup_fields {β : Type} {entries : List (String × α)} {fields : List (String × β)}
    {related : String × α → String × β → Prop} (hkeys : (Keyed.keys entries).Nodup)
    (h : List.Forall₂ (fun entry field => entry.1 = field.1 ∧ related entry field) entries fields) :
    (Keyed.keys fields).Nodup := by
  rw [keys_of_forall₂ Prod.fst (h.imp fun _ _ => And.left)]
  exact hkeys

end Makes

/-! ## What a making leaves -/

/-- A making that succeeds has kept the heap, and what is said of the value holds for every heap
that keeps what was made. -/
def Leaves (make : Run Error ScriptValue) (holds : ScriptValue → Heap → Prop) : Prop :=
  ∀ ⦃w : World⦄ ⦃s : ScriptValue⦄ ⦃w' : World⦄, make w = some (.ok s, w') →
    w.Keeps w' ∧ ∀ h : Heap, w'.heap.Keeps (w.heap.objects.size ≤ ·.index) h → holds s h

/-- An object that is there and has a property for each entry and no other, with a value made for
the last entry of its key. -/
structure Filled (holds : α → ScriptValue → Heap → Prop) (o : ObjectId)
    (entries : List (String × α)) (w : World) : Prop where
  there : o.index < w.heap.objects.size
  own : ∀ key, Option.Rel (fun a property => ∃ s, property = .data s ∧
      ∀ h : Heap, w.heap.Keeps (o.index < ·.index) h → holds a s h)
    (Keyed.get? key entries.reverse) (w.heap.own? o key)

/-- What is found in both places or in none stays so where what is said of it follows. -/
theorem rel_imp {β γ : Type} {R S : β → γ → Prop} {b : Option β} {c : Option γ}
    (h : ∀ b c, R b c → S b c) (hr : Option.Rel R b c) : Option.Rel S b c := by
  cases hr with
  | none => exact .none
  | some hbc => exact .some (h _ _ hbc)

/-- What is said of what is made of the one is said of the one. -/
theorem rel_map_left {β γ δ : Type} {R : δ → γ → Prop} {f : β → δ} {b : Option β} {c : Option γ}
    (hr : Option.Rel (fun b c => R (f b) c) b c) : Option.Rel R (b.map f) c := by
  cases hr with
  | none => exact .none
  | some hbc => exact .some hbc

namespace Leaves

variable {make : α → Run Error ScriptValue} {holds : α → ScriptValue → Heap → Prop}

/-- The making of a value about which nothing depends on the heap. -/
theorem of_keeps {make : Run Error ScriptValue} {holds : ScriptValue → Heap → Prop}
    (hkeeps : make.Within World.Keeps) (hgives : make.Gives fun s => ∀ h, holds s h) :
    Leaves make holds :=
  fun _ _ _ hrun => ⟨hkeeps hrun, fun h _ => hgives hrun h⟩

/-- The result of a pure function. -/
theorem ofConversion {r : Except ConversionError ScriptValue}
    {holds : ScriptValue → Heap → Prop} (h : ∀ s, r = .ok s → ∀ heap, holds s heap) :
    Leaves (Run.ofConversion r) holds := by
  refine of_keeps (.ofExcept _) ?_
  intro w s w' hrun
  exact h s (ofConversion_ok hrun).1

theorem mono {make : Run Error ScriptValue} {holds holds' : ScriptValue → Heap → Prop}
    (hmake : Leaves make holds) (h : ∀ s heap, holds s heap → holds' s heap) :
    Leaves make holds' :=
  fun _ _ _ hrun => (hmake hrun).imp id fun hholds heap hk => h _ _ (hholds heap hk)

/-- Values made one after the other. -/
theorem mapM {l : List α} (h : ∀ a ∈ l, Leaves (make a) (holds a)) ⦃w w' : World⦄
    ⦃ss : List ScriptValue⦄ (hrun : l.mapM make w = some (.ok ss, w')) :
    w.Keeps w' ∧ ∀ heap : Heap, w'.heap.Keeps (w.heap.objects.size ≤ ·.index) heap →
      List.Forall₂ (fun a s => holds a s heap) l ss := by
  induction l generalizing w ss with
  | nil =>
    cases hrun
    exact ⟨Std.Refl.refl _, fun _ _ => .nil⟩
  | cons a l ih =>
    rw [List.mapM_cons] at hrun
    obtain ⟨s, w₁, hmake, hrun⟩ := bind_ok_cases hrun
    obtain ⟨ss, w₂, hmakes, hrun⟩ := bind_ok_cases hrun
    cases hrun
    obtain ⟨hkeeps, hholds⟩ := h a List.mem_cons_self hmake
    obtain ⟨hkeeps₂, hrest⟩ := ih (fun b hb => h b (List.mem_cons_of_mem _ hb)) hmakes
    refine ⟨IsTrans.trans _ _ _ hkeeps hkeeps₂, fun heap hheap => .cons (hholds heap ?_) ?_⟩
    · exact (Heap.Keeps.of_all hkeeps₂).trans hheap
    · exact hrest heap (hheap.imp fun o ho => Nat.le_trans hkeeps.objects_le ho)

/-- A fresh array of values made one after the other. -/
theorem array {l : List α} (h : ∀ a ∈ l, Leaves (make a) (holds a)) :
    Leaves (do return .array (← Run.onHeap (·.newArray (← l.mapM make))))
      fun s heap => ∃ a, s = .array a ∧
        List.Forall₂ (fun b s => holds b s heap) l (heap.items a) := by
  intro w s w' hrun
  obtain ⟨ss, w₁, hmakes, hrun⟩ := bind_ok_cases hrun
  cases hrun
  obtain ⟨hkeeps, hholds⟩ := mapM h hmakes
  have hnew : w₁.heap.Keeps (fun _ => True) (w₁.heap.newArray ss).1 := .newArray w₁.heap ss
  refine ⟨IsTrans.trans _ _ _ hkeeps hnew, fun heap hheap => ⟨_, rfl, ?_⟩⟩
  have hlt : (w₁.heap.newArray ss).2.index < (w₁.heap.newArray ss).1.arrays.size := by
    simp [Heap.newArray]
  have hitems : heap.items (w₁.heap.newArray ss).2 = ss :=
    (hheap.items _ hlt).trans (w₁.heap.items_newArray ss)
  show List.Forall₂ _ l (heap.items (w₁.heap.newArray ss).2)
  rw [hitems]
  exact hholds heap ((Heap.Keeps.of_all hnew).trans hheap)

/-- Putting one more field on an object that is filled. -/
theorem putField {o : ObjectId} {done : List (String × α)} {entry : String × α}
    (h : Leaves (make entry.2) (holds entry.2)) ⦃w w' : World⦄ (hw : Filled holds o done w)
    (hrun : Makes.putField make o entry w = some (.ok (), w')) :
    Filled holds o (done ++ [entry]) w' ∧ w.heap.Keeps (· ≠ o) w'.heap := by
  obtain ⟨key, a⟩ := entry
  obtain ⟨s, w₁, hmake, hrun⟩ := bind_ok_cases hrun
  cases hrun
  obtain ⟨hkeeps, hholds⟩ := h hmake
  have ho₁ : o.index < w₁.heap.objects.size := Nat.lt_of_lt_of_le hw.there hkeeps.objects_le
  have hinsert : w₁.heap.Keeps (· ≠ o) (w₁.heap.insert o key s) :=
    .define _ (fun hne => hne rfl) _ _
  have hlater : ∀ p : ObjectId, o.index < p.index → p ≠ o := by
    rintro p hp rfl
    exact Nat.lt_irrefl _ hp
  refine ⟨⟨?_, fun other => ?_⟩, (Heap.Keeps.of_all hkeeps).trans hinsert⟩
  · exact Nat.lt_of_lt_of_le ho₁ hinsert.objects_le
  rw [List.reverse_append, List.reverse_singleton, List.singleton_append]
  by_cases hkey : other = key
  · -- The key of the entry: what was made last is there.
    subst hkey
    have hown : (w₁.heap.insert o other s).own? o other = some (.data s) :=
      w₁.heap.own?_define_self ho₁ other _
    rw [Keyed.get?, if_pos rfl]
    show Option.Rel _ _ ((w₁.heap.insert o other s).own? o other)
    rw [hown]
    refine .some ⟨s, rfl, fun heap hheap => hholds heap ?_⟩
    exact ((hinsert.imp hlater).trans hheap).imp fun p hp => Nat.lt_of_lt_of_le hw.there hp
  · have hown : (w₁.heap.insert o key s).own? o other = w.heap.own? o other := by
      rw [Heap.insert, w₁.heap.own?_define_of_ne hkey, Heap.own?, Heap.own?,
        hkeeps.object o trivial hw.there]
    rw [Keyed.get?, if_neg (Ne.symm hkey)]
    show Option.Rel _ _ ((w₁.heap.insert o key s).own? o other)
    rw [hown]
    refine rel_imp ?_ (hw.own other)
    rintro b property ⟨t, ht, hheld⟩
    refine ⟨t, ht, fun heap hheap => hheld heap ?_⟩
    exact ((Heap.Keeps.of_all hkeeps).trans (hinsert.imp hlater)).trans hheap

/-- Putting fields on an object, one after the other. -/
theorem putFields {o : ObjectId} {entries : List (String × α)}
    (h : ∀ entry ∈ entries, Leaves (make entry.2) (holds entry.2)) {done : List (String × α)}
    ⦃w w' : World⦄ (hw : Filled holds o done w)
    (hrun : entries.forM (Makes.putField make o) w = some (.ok (), w')) :
    Filled holds o (done ++ entries) w' ∧ w.heap.Keeps (· ≠ o) w'.heap := by
  induction entries generalizing done w with
  | nil =>
    cases hrun
    rw [List.append_nil]
    exact ⟨hw, Heap.Keeps.refl _ _⟩
  | cons entry entries ih =>
    obtain ⟨_, w₁, hput, hrest⟩ := bind_ok_cases hrun
    obtain ⟨hw₁, hkeeps⟩ := putField (h entry List.mem_cons_self) hw hput
    obtain ⟨hw', hkeeps'⟩ := ih (fun e he => h e (List.mem_cons_of_mem _ he)) hw₁ hrest
    rw [List.append_assoc, List.singleton_append] at hw'
    exact ⟨hw', hkeeps.trans hkeeps'⟩

/-- A fresh object with values made one after the other in its fields. -/
theorem object {entries : List (String × α)}
    (h : ∀ entry ∈ entries, Leaves (make entry.2) (holds entry.2)) :
    Leaves (do
        let o ← Run.onHeap (·.newObject .plain)
        entries.forM (Makes.putField make o)
        return .object o)
      fun s heap => ∃ o, s = .object o ∧ ∀ key,
        Option.Rel (fun a property => ∃ s, property = .data s ∧ holds a s heap)
          (Keyed.get? key entries.reverse) (heap.own? o key) := by
  intro w s w' hrun
  rw [bind_ok (onHeap_apply _ w)] at hrun
  obtain ⟨_, w₁, hputs, hrun⟩ := bind_ok_cases hrun
  cases hrun
  let o : ObjectId := (w.heap.newObject .plain).2
  let w₀ : World := { w with heap := (w.heap.newObject .plain).1 }
  have hnew : w.Keeps w₀ := .newObject w.heap .plain
  have hempty : Filled holds o [] w₀ := by
    refine ⟨by simp [w₀, o, Heap.newObject], fun key => ?_⟩
    rw [Heap.own?, w.heap.object_newObject]
    exact .none
  obtain ⟨hw', hkeeps⟩ := putFields h hempty hputs
  refine ⟨?_, fun heap hheap => ⟨o, rfl, fun key => ?_⟩⟩
  · -- The object that was made is none of those that were there.
    refine ((Heap.Keeps.of_all hnew).trans (hkeeps.imp ?_)).all
    rintro p hp rfl
    exact Nat.lt_irrefl _ hp
  · have hsame : heap.own? o key = w'.heap.own? o key := by
      rw [Heap.own?, Heap.own?, hheap.object o (Nat.le_refl _) hw'.there]
    rw [hsame]
    refine rel_imp ?_ (hw'.own key)
    rintro a property ⟨t, ht, hheld⟩
    exact ⟨t, ht, hheld heap (hheap.imp fun p hp => Nat.le_of_lt hp)⟩

end Leaves

/-! ## Reading objects back -/

namespace Reentry

variable (r : Reentry) {w : World} {o : ObjectId}

/-- A property of its own that holds a value is read off an object. -/
theorem get_of_own {key : String} {value : ScriptValue}
    (h : w.heap.own? o key = some (.data value)) : r.get o key w = some (.ok value, w) := by
  have hlookup : w.heap.lookup? o key = some (.data value) := by
    rw [Heap.lookup?, Heap.chain, List.findSome?_cons, h]
  rw [get, bind_ok (ofHeap_apply _ w), hlookup]
  rfl

/-- An object of values is read as the list of them. -/
theorem entries_of_data {fields : List (String × ScriptValue)}
    (h : (w.heap.object o).properties = fields.map fun f => (f.1, .data f.2))
    (hkeys : (Keyed.keys fields).Nodup) : r.entries o w = some (.ok fields, w) := by
  have hown : w.heap.ownKeys o = fields.map (·.1) := by
    rw [Heap.ownKeys, h, Keyed.keys, List.map_map]
    rfl
  have hread : ∀ f ∈ fields, r.get o f.1 w = some (.ok f.2, w) := by
    rintro ⟨key, value⟩ hf
    refine r.get_of_own ?_
    rw [Heap.own?, h]
    refine Keyed.get?_eq_some_of_mem ?_ (List.mem_map.2 ⟨_, hf, rfl⟩)
    rw [Keyed.keys, List.map_map]
    exact hkeys
  rw [entries, bind_ok (ofHeap_apply _ w), hown, List.mapM_map]
  refine mapM_forall₂ (List.forall₂_same.2 fun f hf => ?_)
  exact (bind_ok (hread f hf) _).trans rfl

end Reentry

end ScriptBoundary
