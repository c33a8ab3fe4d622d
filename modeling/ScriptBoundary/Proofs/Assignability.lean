import ScriptBoundary.Proofs.Conformance
import ScriptBoundary.Proofs.Layers

/-!
# What a class can stand for

The interfaces of a class are closed under naming interfaces: the walk that finds them leaves none
out, whatever it has met before (`completes_allInterfaces`, `among_of_interface`). The walk does not
look at the bases of interfaces, though. So one class stands for another, and that for a third,
only where the bases of interfaces are reached in some other way (`Catalog.InheritsBases`), and
standing for a type is transitive exactly then.
-/

namespace ScriptBoundary

open Run

namespace Catalog

variable {catalog : Catalog} {c : ClassRef}

/-! ## The walk along interfaces -/

/-- Some class of a list is of the same type. -/
def Among (catalog : Catalog) (i : ClassRef) (l : List ClassRef) : Prop :=
  ∃ k ∈ l, catalog.sameType i k = true

theorem Among.mono {i : ClassRef} {l l' : List ClassRef} (h : catalog.Among i l) (hl : l ⊆ l') :
    catalog.Among i l' := by
  obtain ⟨k, hk, hsame⟩ := h
  exact ⟨k, hl hk, hsame⟩

theorem among_of_mem {i : ClassRef} {l : List ClassRef} (h : i ∈ l) : catalog.Among i l :=
  ⟨i, h, beq_self_eq_true _⟩

theorem any_sameType_iff {i : ClassRef} {l : List ClassRef} :
    l.any (catalog.sameType i) = true ↔ catalog.Among i l := List.any_eq_true

/-- One list extends another by classes whose interfaces it has all. -/
structure Completes (catalog : Catalog) (found found' : List ClassRef) : Prop where
  keeps : found ⊆ found'
  interfaces : ∀ x ∈ found', x ∈ found ∨ ∀ j ∈ (catalog.decl x).interfaces, catalog.Among j found'

namespace Completes

variable {found found' found'' : List ClassRef}

theorem refl (found : List ClassRef) : catalog.Completes found found :=
  ⟨fun _ => id, fun _ hx => .inl hx⟩

theorem trans (h : catalog.Completes found found') (h' : catalog.Completes found' found'') :
    catalog.Completes found found'' where
  keeps := fun _ hx => h'.keeps (h.keeps hx)
  interfaces x hx := by
    rcases h'.interfaces x hx with hx | hx
    · exact (h.interfaces x hx).imp id fun hj j hmem => (hj j hmem).mono h'.keeps
    · exact .inr hx

/-- A walk that completes what it has met at each step completes it along a list, and what the steps
make sure of is there at the end. -/
theorem foldl {visit : List ClassRef → ClassRef → List ClassRef} {l : List ClassRef}
    (hvisit : ∀ i ∈ l, ∀ found, catalog.Completes found (visit found i) ∧
      catalog.Among i (visit found i)) (found : List ClassRef) :
    catalog.Completes found (l.foldl visit found) ∧
      ∀ i ∈ l, catalog.Among i (l.foldl visit found) := by
  induction l generalizing found with
  | nil => exact ⟨refl found, List.forall_mem_nil _⟩
  | cons i l ih =>
    obtain ⟨hfirst, hi⟩ := hvisit i List.mem_cons_self found
    obtain ⟨hrest, hl⟩ := ih (fun j hj => hvisit j (List.mem_cons_of_mem _ hj)) (visit found i)
    exact ⟨hfirst.trans hrest, List.forall_mem_cons.2 ⟨hi.mono hrest.keeps, hl⟩⟩

end Completes

/-- Visiting an interface finds it, and completes what was found before. -/
theorem completes_visitInterface {n : Nat} {i : ClassRef} (hi : i.index < n)
    (found : List ClassRef) :
    catalog.Completes found (catalog.visitInterface n found i) ∧
      catalog.Among i (catalog.visitInterface n found i) := by
  induction n generalizing found i with
  | zero => omega
  | succ n ih =>
    rw [visitInterface]
    split
    · next hmet => exact ⟨.refl found, any_sameType_iff.1 hmet⟩
    · have hbelow := (catalog.restsOn_decl i).2
      obtain ⟨hrest, hnamed⟩ := Completes.foldl
        (fun j hj => ih (Nat.lt_of_lt_of_le (hbelow j hj) (Nat.le_of_lt_succ hi))) (found ++ [i])
      have hself : i ∈ found ++ [i] := List.mem_append_right _ List.mem_cons_self
      refine ⟨⟨fun x hx => hrest.keeps (List.mem_append_left _ hx), fun x hx => ?_⟩,
        (among_of_mem hself).mono hrest.keeps⟩
      -- The interface itself is new, and all that it names was visited after it.
      rcases hrest.interfaces x hx with hx | hx
      · rcases List.mem_append.1 hx with hx | hx
        · exact .inl hx
        · rw [List.mem_singleton.1 hx]
          exact .inr hnamed
      · exact .inr hx

theorem completes_allInterfaces (c : ClassRef) :
    catalog.Completes [] (catalog.allInterfaces c) ∧
      ∀ i ∈ (catalog.ancestors c).flatMap fun a => (catalog.decl a).interfaces,
        catalog.Among i (catalog.allInterfaces c) :=
  Completes.foldl (fun _ _ found => completes_visitInterface (Nat.lt_succ_self _) found) []

/-- The interfaces that a class and its bases name are found. -/
theorem among_of_ancestor {a i : ClassRef} (ha : a ∈ catalog.ancestors c)
    (hi : i ∈ (catalog.decl a).interfaces) : catalog.Among i (catalog.allInterfaces c) :=
  (completes_allInterfaces c).2 i (List.mem_flatMap.2 ⟨a, ha, hi⟩)

/-- The interfaces that an interface of a class names are found. -/
theorem among_of_interface {i j : ClassRef} (hi : i ∈ catalog.allInterfaces c)
    (hj : j ∈ (catalog.decl i).interfaces) : catalog.Among j (catalog.allInterfaces c) := by
  rcases (completes_allInterfaces c).1.interfaces i hi with hnone | hnamed
  · cases hnone
  · exact hnamed j hj

/-- What holds of the interfaces that a class and its bases name, and passes on to those that an
interface names, holds of all interfaces of the class. -/
theorem allInterfaces_induction {P : ClassRef → Prop}
    (hstart : ∀ a ∈ catalog.ancestors c, ∀ i ∈ (catalog.decl a).interfaces, P i)
    (hstep : ∀ i, P i → ∀ j ∈ (catalog.decl i).interfaces, P j) :
    ∀ i ∈ catalog.allInterfaces c, P i := by
  have hvisit : ∀ (n : Nat) (i : ClassRef) (found : List ClassRef), P i →
      ∀ k ∈ catalog.visitInterface n found i, k ∈ found ∨ P k := by
    intro n
    induction n with
    | zero => exact fun _ _ _ _ hk => .inl hk
    | succ n ih =>
      intro i found hi k hk
      rw [visitInterface] at hk
      split at hk
      · exact .inl hk
      · rcases mem_or_of_mem_foldl (fun j hj found => ih j found (hstep i hi j hj)) hk with hk | hk
        · rcases List.mem_append.1 hk with hk | hk
          · exact .inl hk
          · rw [List.mem_singleton.1 hk]
            exact .inr hi
        · exact .inr hk
  intro i hi
  have hnamed : ∀ j ∈ (catalog.ancestors c).flatMap fun a => (catalog.decl a).interfaces,
      ∀ found : List ClassRef, ∀ k ∈ catalog.visitInterface (j.index + 1) found j,
        k ∈ found ∨ P k := by
    intro j hj found
    obtain ⟨a, ha, hja⟩ := List.mem_flatMap.1 hj
    exact hvisit _ j found (hstart a ha j hja)
  exact (mem_or_of_mem_foldl hnamed hi).resolve_left List.not_mem_nil

/-! ## Standing for a type -/

/-- A class stands for the types of its bases and of its interfaces. -/
theorem isAssignable_iff {target : ClassRef} : catalog.isAssignable c target = true ↔
    catalog.Among target (catalog.ancestors c) ∨ catalog.Among target (catalog.allInterfaces c) := by
  rw [isAssignable, Bool.or_eq_true, any_sameType_iff, any_sameType_iff]

/-- Standing for a declaration is standing for its type. -/
theorem isAssignable_congr {target target' : ClassRef} (h : catalog.sameType target target' = true) :
    catalog.isAssignable c target = catalog.isAssignable c target' := by
  rw [isAssignable, sameType_congr (beq_iff_eq.1 h), isAssignable]

/-- Whatever has an interface can stand for the base of the interface. -/
def InheritsBases (catalog : Catalog) : Prop :=
  ∀ place < catalog.size, ∀ i ∈ catalog.allInterfaces ⟨place⟩, ∀ b ∈ (catalog.decl i).base,
    catalog.isAssignable ⟨place⟩ b = true

instance (catalog : Catalog) : Decidable catalog.InheritsBases :=
  inferInstanceAs (Decidable (∀ place < catalog.size, ∀ i ∈ _, ∀ b ∈ ClassDecl.base _, _ = true))

/-! ## Steps from what a class stands for -/

/-- A declaration that names a base or an interface is in the catalogue. -/
theorem lt_size_of_names {x y : ClassRef}
    (h : (catalog.decl x).base = some y ∨ y ∈ (catalog.decl x).interfaces) :
    x.index < catalog.size := by
  by_contra hx
  rw [catalog.decl_of_size_le (Nat.not_lt.1 hx)] at h
  rcases h with h | h
  · cases h
  · cases h

/-- The base of a class in a chain of bases is in the chain. -/
theorem base_mem_ancestors {a b : ClassRef} (ha : a ∈ catalog.ancestors c)
    (hb : (catalog.decl a).base = some b) : b ∈ catalog.ancestors c := by
  -- On the place of the class, along its bases.
  induction hn : c.index using Nat.strongRecOn generalizing c with
  | _ n ih =>
    rw [catalog.ancestors_eq c] at ha ⊢
    refine List.mem_cons_of_mem _ ?_
    rcases List.mem_cons.1 ha with rfl | ha
    · rw [hb, Option.map_some, Option.getD_some, catalog.ancestors_eq b]
      exact List.mem_cons_self
    · cases hbase : (catalog.decl c).base with
      | none =>
        rw [hbase] at ha
        cases ha
      | some base =>
        rw [hbase] at ha
        have hlt := (catalog.restsOn_decl c).1 base (by simp [hbase])
        exact ih base.index (hn ▸ hlt) ha rfl

section Coherent

variable (hcoherent : catalog.Coherent)

include hcoherent

/-- A declaration of the same type names a base of the same type. -/
theorem exists_base_of_sameType {x k b : ClassRef} (hk : k.index < catalog.size)
    (hsame : catalog.sameType x k = true) (hb : (catalog.decl x).base = some b) :
    ∃ b', (catalog.decl k).base = some b' ∧ catalog.sameType b' b = true := by
  have hdecl := hcoherent x k (lt_size_of_names (.inl hb)) hk (beq_iff_eq.1 hsame)
  have hbase : (catalog.decl x).base.map catalog.first = (catalog.decl k).base.map catalog.first :=
    congrArg (·.base) hdecl
  rw [hb] at hbase
  obtain ⟨b', hb', hfirst⟩ := Option.map_eq_some_iff.1 hbase.symm
  refine ⟨b', hb', ?_⟩
  rw [← sameType_first, hfirst]
  exact beq_self_eq_true _

/-- A declaration of the same type names an interface of the same type. -/
theorem exists_interface_of_sameType {x k j : ClassRef} (hk : k.index < catalog.size)
    (hsame : catalog.sameType x k = true) (hj : j ∈ (catalog.decl x).interfaces) :
    ∃ j' ∈ (catalog.decl k).interfaces, catalog.sameType j' j = true := by
  have hdecl := hcoherent x k (lt_size_of_names (.inr hj)) hk (beq_iff_eq.1 hsame)
  have hinterfaces : (catalog.decl x).interfaces.map catalog.first =
      (catalog.decl k).interfaces.map catalog.first := congrArg (·.interfaces) hdecl
  have hmem := List.mem_map_of_mem (f := catalog.first) hj
  rw [hinterfaces] at hmem
  obtain ⟨j', hj', hfirst⟩ := List.mem_map.1 hmem
  refine ⟨j', hj', ?_⟩
  rw [← sameType_first, hfirst]
  exact beq_self_eq_true _

variable (hc : c.index < catalog.size)

include hc

/-- A class stands for the interfaces named by what it stands for. -/
theorem isAssignable_interface {x j : ClassRef} (hx : catalog.isAssignable c x = true)
    (hj : j ∈ (catalog.decl x).interfaces) : catalog.isAssignable c j = true := by
  rcases isAssignable_iff.1 hx with ⟨k, hk, hsame⟩ | ⟨k, hk, hsame⟩
  · have hlt := Nat.lt_of_le_of_lt (le_of_mem_ancestors hk) hc
    obtain ⟨j', hj', htype⟩ := exists_interface_of_sameType hcoherent hlt hsame hj
    rw [← isAssignable_congr htype]
    exact isAssignable_iff.2 (.inr (among_of_ancestor hk hj'))
  · have hlt := Nat.lt_of_le_of_lt (le_of_mem_allInterfaces hk) hc
    obtain ⟨j', hj', htype⟩ := exists_interface_of_sameType hcoherent hlt hsame hj
    rw [← isAssignable_congr htype]
    exact isAssignable_iff.2 (.inr (among_of_interface hk hj'))

/-- A class stands for the base of what it stands for, if interfaces pass on their bases. -/
theorem isAssignable_base (hbases : catalog.InheritsBases) {x b : ClassRef}
    (hx : catalog.isAssignable c x = true) (hb : (catalog.decl x).base = some b) :
    catalog.isAssignable c b = true := by
  rcases isAssignable_iff.1 hx with ⟨k, hk, hsame⟩ | ⟨k, hk, hsame⟩
  · have hlt := Nat.lt_of_le_of_lt (le_of_mem_ancestors hk) hc
    obtain ⟨b', hb', htype⟩ := exists_base_of_sameType hcoherent hlt hsame hb
    rw [← isAssignable_congr htype]
    exact isAssignable_iff.2 (.inl (among_of_mem (base_mem_ancestors hk hb')))
  · have hlt := Nat.lt_of_le_of_lt (le_of_mem_allInterfaces hk) hc
    obtain ⟨b', hb', htype⟩ := exists_base_of_sameType hcoherent hlt hsame hb
    rw [← isAssignable_congr htype]
    exact hbases c.index hc k hk b' hb'

/-- A class stands for the bases of what it stands for, if interfaces pass on their bases. -/
theorem isAssignable_ancestor (hbases : catalog.InheritsBases) {x a : ClassRef}
    (hx : catalog.isAssignable c x = true) (ha : a ∈ catalog.ancestors x) :
    catalog.isAssignable c a = true := by
  induction hn : x.index using Nat.strongRecOn generalizing x with
  | _ n ih =>
    rw [catalog.ancestors_eq x] at ha
    rcases List.mem_cons.1 ha with rfl | ha
    · exact hx
    · cases hb : (catalog.decl x).base with
      | none =>
        rw [hb] at ha
        cases ha
      | some b =>
        rw [hb] at ha
        have hlt := (catalog.restsOn_decl x).1 b (by simp [hb])
        exact ih b.index (hn ▸ hlt) (isAssignable_base hcoherent hc hbases hx hb) ha rfl

/-- Standing for a type is transitive, if interfaces pass on their bases. -/
theorem isAssignable_trans (hbases : catalog.InheritsBases) {x target : ClassRef}
    (hx : catalog.isAssignable c x = true) (htarget : catalog.isAssignable x target = true) :
    catalog.isAssignable c target = true := by
  rcases isAssignable_iff.1 htarget with ⟨a, ha, hsame⟩ | ⟨i, hi, hsame⟩
  · rw [isAssignable_congr hsame]
    exact isAssignable_ancestor hcoherent hc hbases hx ha
  · rw [isAssignable_congr hsame]
    refine allInterfaces_induction (P := fun i => catalog.isAssignable c i = true) ?_ ?_ i hi
    · intro a ha i hi
      have hca := isAssignable_ancestor hcoherent hc hbases hx ha
      exact isAssignable_interface hcoherent hc hca hi
    · exact fun i hci j hj => isAssignable_interface hcoherent hc hci hj

end Coherent

/-! ## Values -/

variable {target : Instance}

/-- An instance passes the check against a class exactly when its class stands for it. -/
theorem conform_object_iff : catalog.conform (.object c) (.object target) = .ok (.object target) ↔
    catalog.isAssignable target.runtimeClass c = true := by
  have hcheck : catalog.conform (.object c) (.object target) =
      if catalog.isAssignable target.runtimeClass c then .ok (.object target)
      else .error (catalog.mismatch (.object c) (catalog.kindName (.object target))) := rfl
  rw [hcheck]
  split
  · next h => exact ⟨fun _ => h, fun _ => rfl⟩
  · next h => exact ⟨fun herror => (nomatch herror), fun hc => absurd hc h⟩

/-- A proxy converts to the instance behind it exactly when the class of that stands for the class
asked for. -/
theorem toNative_proxy_iff {r : Reentry} {w : World} {o : ObjectId}
    (ho : (w.heap.object o).target = some target) :
    catalog.toNative r (.object c) (.object o) w = some (.ok (.object target), w) ↔
      catalog.isAssignable target.runtimeClass c = true := by
  rw [toNative_object]
  refine ⟨fun h => ?_, objectToNative_of_target catalog r ho⟩
  by_contra hc
  rw [objectToNative, bind_ok (ofHeap_apply _ w), ho] at h
  simp only [hc] at h
  cases h

/-! ## The preorder -/

/-- Standing for a type is reflexive, and it is transitive exactly when interfaces pass on their
bases. Then every instance that passes for one of a class, itself or by a proxy, passes for one of
whatever the class stands for. -/
theorem assignable_preorder_iff (hcoherent : catalog.Coherent) :
    (∀ c, catalog.isAssignable c c = true) ∧
      ((∀ c d b : ClassRef, c.index < catalog.size → catalog.isAssignable c d = true →
          catalog.isAssignable d b = true → catalog.isAssignable c b = true) ↔
        catalog.InheritsBases) ∧
      (catalog.InheritsBases → ∀ d b : ClassRef, catalog.isAssignable d b = true →
        ∀ target : Instance, target.runtimeClass.index < catalog.size →
          (catalog.conform (.object d) (.object target) = .ok (.object target) →
            catalog.conform (.object b) (.object target) = .ok (.object target)) ∧
          ∀ (r : Reentry) (w : World) (o : ObjectId), (w.heap.object o).target = some target →
            catalog.toNative r (.object d) (.object o) w = some (.ok (.object target), w) →
              catalog.toNative r (.object b) (.object o) w = some (.ok (.object target), w)) := by
  refine ⟨isAssignable_self, ⟨fun htrans place hplace i hi b hb => ?_, ?_⟩, ?_⟩
  · -- The class stands for its interface, and the interface for its base.
    have hci : catalog.isAssignable ⟨place⟩ i = true := isAssignable_iff.2 (.inr (among_of_mem hi))
    have hself : i ∈ catalog.ancestors i := by
      rw [catalog.ancestors_eq i]
      exact List.mem_cons_self
    have hib : catalog.isAssignable i b = true :=
      isAssignable_iff.2 (.inl (among_of_mem (base_mem_ancestors hself hb)))
    exact htrans _ i b hplace hci hib
  · exact fun hbases c d b hc => isAssignable_trans hcoherent hc hbases
  · intro hbases d b hdb target hclass
    have hpasses := fun hd => isAssignable_trans hcoherent hclass hbases (x := d) hd hdb
    refine ⟨fun hd => conform_object_iff.2 (hpasses (conform_object_iff.1 hd)), ?_⟩
    exact fun r w o ho hd => (toNative_proxy_iff ho).2 (hpasses ((toNative_proxy_iff ho).1 hd))

/-- Cars can be driven, and what can be driven can be moved: the interface names its base among its
interfaces too. Vans are cars by another declaration of them. -/
def garage : Catalog where
  decls :=
    [{ (default : ClassDecl) with identity := ⟨1⟩, name := "Movable", isInterface := true },
      { (default : ClassDecl) with
        identity := ⟨2⟩, name := "Drivable", isInterface := true, base := some ⟨0⟩,
        interfaces := [⟨0⟩] },
      { (default : ClassDecl) with identity := ⟨3⟩, name := "Car", interfaces := [⟨1⟩] },
      { (default : ClassDecl) with identity := ⟨3⟩, name := "Car", interfaces := [⟨1⟩] },
      { (default : ClassDecl) with identity := ⟨4⟩, name := "Van", base := some ⟨3⟩ }]
  restsOn := by decide

/-- A van stands for a car, a car for what can be moved, so a van passes for that. -/
theorem van_movable :
    garage.Coherent ∧ garage.InheritsBases ∧ garage.isAssignable ⟨4⟩ ⟨2⟩ = true ∧
      garage.isAssignable ⟨2⟩ ⟨0⟩ = true ∧ garage.isAssignable ⟨4⟩ ⟨0⟩ = true ∧
      garage.conform (.object ⟨0⟩) (.object ⟨1, ⟨4⟩⟩) = .ok (.object ⟨1, ⟨4⟩⟩) := by
  have hcoherent : garage.Coherent := by
    refine .of_first fun c hc => ?_
    match c, hc with
    | ⟨0⟩, _ | ⟨1⟩, _ | ⟨2⟩, _ | ⟨3⟩, _ | ⟨4⟩, _ => rfl
  have hbases : garage.InheritsBases := by decide
  obtain ⟨-, htrans, haccepts⟩ := assignable_preorder_iff hcoherent
  have hvan : garage.isAssignable ⟨4⟩ ⟨2⟩ = true := by decide
  have hcar : garage.isAssignable ⟨2⟩ ⟨0⟩ = true := by decide
  refine ⟨hcoherent, hbases, hvan, hcar, ?_, ?_⟩
  · exact htrans.2 hbases ⟨4⟩ ⟨2⟩ ⟨0⟩ (by decide) hvan hcar
  · exact (haccepts hbases ⟨2⟩ ⟨0⟩ hcar ⟨1, ⟨4⟩⟩ (by decide)).1 rfl

/-- Rafts can be steered, and what can be steered floats: here the interface has a base and names no
interface. -/
def rafts : Catalog where
  decls :=
    [{ (default : ClassDecl) with identity := ⟨1⟩, name := "Floating", isInterface := true },
      { (default : ClassDecl) with
        identity := ⟨2⟩, name := "Steerable", isInterface := true, base := some ⟨0⟩ },
      { (default : ClassDecl) with identity := ⟨3⟩, name := "Raft", interfaces := [⟨1⟩] }]
  restsOn := by decide

/-- A raft stands for what can be steered, and that for what floats, but a raft does not pass for
what floats. -/
theorem raft_not_floating :
    rafts.Coherent ∧ rafts.isAssignable ⟨2⟩ ⟨1⟩ = true ∧ rafts.isAssignable ⟨1⟩ ⟨0⟩ = true ∧
      rafts.isAssignable ⟨2⟩ ⟨0⟩ = false ∧
      rafts.conform (.object ⟨1⟩) (.object ⟨1, ⟨2⟩⟩) = .ok (.object ⟨1, ⟨2⟩⟩) ∧
      rafts.conform (.object ⟨0⟩) (.object ⟨1, ⟨2⟩⟩) =
        .error (.typeMismatch "Floating" "Raft") := by
  refine ⟨.of_first fun c hc => ?_, by decide, by decide, by decide, rfl, rfl⟩
  match c, hc with
  | ⟨0⟩, _ | ⟨1⟩, _ | ⟨2⟩, _ => rfl

end Catalog

end ScriptBoundary
