import Mathlib.Data.List.Basic
import Mathlib.Logic.Relation
import ScriptBoundary.Proofs.Assignability

/-!
# The interfaces of a class in order

The interfaces of a class come in the order of a walk: those that the class and then each of its
bases name, each followed at once by what it names in turn (`Catalog.preorder`). That walk comes by
an interface as often as there are ways to it. `allInterfaces` keeps the first time for each type
and does not walk on from an interface whose type it has met, and neither does the loop with a list
of pending interfaces (`Scan`), which does the same work without recursion (`runs_visit`).

What a visit leaves out is there already, because with a type everything is found that its
declarations lead to (`Explored`). That holds while the interfaces that an interface names are
visited, as none of what these lead to is of the type of the interface itself: two declarations of
one type lead to equally much (`preorder_congr`), and what an interface leads to leads to less
(`length_lt_of_mem_preorder`). So one visit adds what is new in the walk (`visit_eq_foldl`).
-/

namespace ScriptBoundary

namespace Catalog

variable (catalog : Catalog)

/-! ## The walk -/

/-- An interface, followed by what each interface leads to that it names. The number bounds the
depth. -/
def preorderWithin : Nat → ClassRef → List ClassRef
  | 0, _ => []
  | n + 1, i => i :: (catalog.decl i).interfaces.flatMap (preorderWithin n)

/-- An interface and what it leads to, in the order of the walk. -/
def preorder (i : ClassRef) : List ClassRef := catalog.preorderWithin (i.index + 1) i

/-- The interfaces that a class names and then those that its bases name, most derived first. -/
def named (c : ClassRef) : List ClassRef :=
  (catalog.ancestors c).flatMap fun a => (catalog.decl a).interfaces

/-- One interface names another. -/
def Names (i j : ClassRef) : Prop := j ∈ (catalog.decl i).interfaces

/-- An interface that a class or one of its bases names, or that one of those names in turn. -/
def Reachable (c i : ClassRef) : Prop :=
  ∃ a ∈ catalog.ancestors c, ∃ j ∈ (catalog.decl a).interfaces,
    Relation.ReflTransGen catalog.Names j i

/-- Keeps an interface, unless its type is among those found. -/
def addNew (found : List ClassRef) (i : ClassRef) : List ClassRef :=
  if found.any (catalog.sameType i) then found else found ++ [i]

/-- A visit to an interface, as deep as it goes. -/
def visit (found : List ClassRef) (i : ClassRef) : List ClassRef :=
  catalog.visitInterface (i.index + 1) found i

variable {catalog} {c i j k x y : ClassRef} {found : List ClassRef}

/-- What passes on to an interface from all that it names holds of every interface. -/
theorem interface_induction {P : ClassRef → Prop}
    (h : ∀ i, (∀ j ∈ (catalog.decl i).interfaces, P j) → P i) (i : ClassRef) : P i := by
  -- On the place, since an interface names only earlier ones.
  induction hn : i.index using Nat.strongRecOn generalizing i with
  | _ n ih =>
    refine h i fun j hj => ?_
    have hlt := (catalog.restsOn_decl i).2 j hj
    exact ih j.index (hn ▸ hlt) j rfl

/-- More depth than the place of the interface leaves the walk as it is. -/
theorem preorderWithin_of_lt {n : Nat} (h : i.index < n) :
    catalog.preorderWithin n i = catalog.preorder i := by
  suffices hdepths : ∀ m n : Nat, i.index < n → i.index < m →
      catalog.preorderWithin n i = catalog.preorderWithin m i from
    hdepths _ _ h (Nat.lt_succ_self _)
  clear h n
  induction i using interface_induction with
  | h i ih =>
    intro m n hn hm
    obtain ⟨n, rfl⟩ := Nat.exists_eq_succ_of_ne_zero (Nat.ne_zero_of_lt hn)
    obtain ⟨m, rfl⟩ := Nat.exists_eq_succ_of_ne_zero (Nat.ne_zero_of_lt hm)
    refine congrArg (i :: ·) (List.flatMap_congr fun j hj => ?_)
    have hlt := (catalog.restsOn_decl i).2 j hj
    exact ih j hj m n (by omega) (by omega)

/-- The walk from an interface goes on from each interface that it names. -/
theorem preorder_eq (i : ClassRef) :
    catalog.preorder i = i :: (catalog.decl i).interfaces.flatMap catalog.preorder := by
  refine congrArg (i :: ·) (List.flatMap_congr fun j hj => ?_)
  exact preorderWithin_of_lt ((catalog.restsOn_decl i).2 j hj)

/-- More depth than the place of the interface leaves a visit as it is. -/
theorem visitInterface_of_lt {n : Nat} (h : i.index < n) (found : List ClassRef) :
    catalog.visitInterface n found i = catalog.visit found i := by
  suffices hdepths : ∀ (m n : Nat) (found : List ClassRef), i.index < n → i.index < m →
      catalog.visitInterface n found i = catalog.visitInterface m found i from
    hdepths _ _ found h (Nat.lt_succ_self _)
  clear h n found
  induction i using interface_induction with
  | h i ih =>
    intro m n found hn hm
    obtain ⟨n, rfl⟩ := Nat.exists_eq_succ_of_ne_zero (Nat.ne_zero_of_lt hn)
    obtain ⟨m, rfl⟩ := Nat.exists_eq_succ_of_ne_zero (Nat.ne_zero_of_lt hm)
    rw [visitInterface, visitInterface]
    split
    · rfl
    · refine List.foldl_ext _ _ _ fun found j hj => ?_
      have hlt := (catalog.restsOn_decl i).2 j hj
      exact ih j hj m n found (by omega) (by omega)

/-- A visit finds nothing where the type is found already, else the interface and then what visits
to the interfaces that it names find. -/
theorem visit_eq (found : List ClassRef) (i : ClassRef) : catalog.visit found i =
    if found.any (catalog.sameType i) then found
    else (catalog.decl i).interfaces.foldl catalog.visit (found ++ [i]) := by
  rw [visit, visitInterface]
  split
  · rfl
  · refine List.foldl_ext _ _ _ fun found j hj => ?_
    exact visitInterface_of_lt ((catalog.restsOn_decl i).2 j hj) found

/-! ## What an interface leads to -/

/-- The walk from what an interface leads to is a part of its own. -/
theorem preorder_sublist (hx : x ∈ catalog.preorder i) :
    (catalog.preorder x).Sublist (catalog.preorder i) := by
  induction i using interface_induction with
  | h i ih =>
    rw [preorder_eq] at hx
    rcases List.mem_cons.1 hx with rfl | hx
    · exact List.Sublist.refl _
    · obtain ⟨j, hj, hx⟩ := List.mem_flatMap.1 hx
      have hpart : (catalog.preorder j).Sublist
          ((catalog.decl i).interfaces.flatMap catalog.preorder) := by
        rw [List.flatMap_def]
        exact List.sublist_flatten_of_mem (List.mem_map_of_mem hj)
      rw [preorder_eq i]
      exact ((ih j hj hx).trans hpart).cons i

theorem preorder_subset (hx : x ∈ catalog.preorder i) :
    catalog.preorder x ⊆ catalog.preorder i :=
  (preorder_sublist hx).subset

/-- An interface leads to itself. -/
theorem self_mem_preorder (catalog : Catalog) (i : ClassRef) : i ∈ catalog.preorder i := by
  rw [preorder_eq]
  exact List.mem_cons_self

/-- What the interfaces lead to that an interface names, the interface leads to. -/
theorem mem_preorder_of_names (hj : j ∈ (catalog.decl i).interfaces)
    (hx : x ∈ catalog.preorder j) : x ∈ catalog.preorder i := by
  rw [preorder_eq i]
  exact List.mem_cons_of_mem _ (List.mem_flatMap.2 ⟨j, hj, hx⟩)

/-- What an interface leads to beyond itself leads to less. -/
theorem length_lt_of_mem_preorder (hj : j ∈ (catalog.decl i).interfaces)
    (hx : x ∈ catalog.preorder j) :
    (catalog.preorder x).length < (catalog.preorder i).length := by
  have hmem : x ∈ (catalog.decl i).interfaces.flatMap catalog.preorder :=
    List.mem_flatMap.2 ⟨j, hj, hx⟩
  have hwithin : (catalog.preorder x).length ≤ (catalog.preorder j).length :=
    (preorder_sublist hx).length_le
  have hpart : (catalog.preorder j).length ≤
      ((catalog.decl i).interfaces.flatMap catalog.preorder).length := by
    rw [List.flatMap_def]
    exact (List.sublist_flatten_of_mem (List.mem_map_of_mem hj)).length_le
  calc (catalog.preorder x).length ≤ (catalog.preorder j).length := hwithin
    _ ≤ ((catalog.decl i).interfaces.flatMap catalog.preorder).length := hpart
    _ < (catalog.preorder i).length := by
      rw [preorder_eq i, List.length_cons]
      exact Nat.lt_succ_self _

/-- The walk comes by just what the interface names, directly or through others. -/
theorem mem_preorder_iff :
    x ∈ catalog.preorder i ↔ Relation.ReflTransGen catalog.Names i x := by
  constructor
  · intro hx
    induction i using interface_induction with
    | h i ih =>
      rw [preorder_eq] at hx
      rcases List.mem_cons.1 hx with rfl | hx
      · exact .refl
      · obtain ⟨j, hj, hx⟩ := List.mem_flatMap.1 hx
        exact .head hj (ih j hj hx)
  · intro hx
    induction hx using Relation.ReflTransGen.head_induction_on with
    | refl => exact self_mem_preorder catalog x
    | head hnames _ ih => exact mem_preorder_of_names hnames ih

theorem mem_named_flatMap_iff :
    i ∈ (catalog.named c).flatMap catalog.preorder ↔ catalog.Reachable c i := by
  simp only [named, List.mem_flatMap, mem_preorder_iff, Reachable]
  constructor
  · rintro ⟨j, ⟨a, ha, hj⟩, hreaches⟩
    exact ⟨a, ha, j, hj, hreaches⟩
  · rintro ⟨a, ha, j, hj, hreaches⟩
    exact ⟨j, ⟨a, ha, hj⟩, hreaches⟩

/-- What an interface in the catalogue leads to is in the catalogue. -/
theorem lt_size_of_mem_preorder (hi : i.index < catalog.size) (hx : x ∈ catalog.preorder i) :
    x.index < catalog.size := by
  induction i using interface_induction with
  | h i ih =>
    rw [preorder_eq] at hx
    rcases List.mem_cons.1 hx with rfl | hx
    · exact hi
    · obtain ⟨j, hj, hx⟩ := List.mem_flatMap.1 hx
      have hlt := (catalog.restsOn_decl i).2 j hj
      exact ih j hj (Nat.lt_trans hlt hi) hx

/-- What a class and its bases name is in the catalogue. -/
theorem lt_size_of_mem_named (hi : i ∈ catalog.named c) : i.index < catalog.size := by
  obtain ⟨a, -, hnamed⟩ := List.mem_flatMap.1 hi
  have hlt := (catalog.restsOn_decl a).2 i hnamed
  exact Nat.lt_trans hlt (lt_size_of_names (.inr hnamed))

/-! ## Keeping what is new -/

theorem subset_addNew : found ⊆ catalog.addNew found i := by
  unfold addNew
  split
  · exact List.Subset.refl _
  · exact List.subset_append_left _ _

theorem among_addNew : catalog.Among i (catalog.addNew found i) := by
  unfold addNew
  split
  · next hany => exact any_sameType_iff.1 hany
  · exact among_of_mem (List.mem_append_right _ (List.mem_singleton_self i))

/-- What is found stays found. -/
theorem subset_foldl_addNew (l found : List ClassRef) : found ⊆ l.foldl catalog.addNew found := by
  induction l generalizing found with
  | nil => exact List.Subset.refl _
  | cons i l ih => exact List.Subset.trans subset_addNew (ih _)

/-- The types of a list are all found. -/
theorem among_foldl_addNew {l : List ClassRef} (hi : i ∈ l) (found : List ClassRef) :
    catalog.Among i (l.foldl catalog.addNew found) := by
  induction l generalizing found with
  | nil => cases hi
  | cons j l ih =>
    rcases List.mem_cons.1 hi with rfl | hi
    · exact among_addNew.mono (subset_foldl_addNew l _)
    · exact ih hi _

/-- Nothing is kept of a list whose types are found already. -/
theorem foldl_addNew_of_among {l : List ClassRef} (h : ∀ i ∈ l, catalog.Among i found) :
    l.foldl catalog.addNew found = found := by
  induction l with
  | nil => rfl
  | cons i l ih =>
    have hkept : catalog.addNew found i = found :=
      if_pos (any_sameType_iff.2 (h i List.mem_cons_self))
    rw [List.foldl_cons, hkept]
    exact ih fun j hj => h j (List.mem_cons_of_mem _ hj)

/-- What is found is of what was found or of the list. -/
theorem mem_foldl_addNew {l : List ClassRef} (hx : x ∈ l.foldl catalog.addNew found) :
    x ∈ found ∨ x ∈ l := by
  refine mem_or_of_mem_foldl (P := (· ∈ l)) (fun i hi found k hk => ?_) hx
  unfold addNew at hk
  split at hk
  · exact .inl hk
  · rcases List.mem_append.1 hk with hk | hk
    · exact .inl hk
    · rw [List.mem_singleton.1 hk]
      exact .inr hi

/-- No type is found twice. -/
theorem pairwise_foldl_addNew (l : List ClassRef)
    (h : found.Pairwise fun a b => catalog.sameType b a = false) :
    (l.foldl catalog.addNew found).Pairwise fun a b => catalog.sameType b a = false := by
  induction l generalizing found with
  | nil => exact h
  | cons i l ih =>
    refine ih ?_
    unfold addNew
    split
    · exact h
    · next hnone =>
      refine List.pairwise_append.2 ⟨h, List.pairwise_singleton _ _, fun a ha b hb => ?_⟩
      rw [List.mem_singleton.1 hb]
      exact Bool.eq_false_iff.2 fun hsame => hnone (List.any_eq_true.2 ⟨a, ha, hsame⟩)

/-- Keeping what is new from the start leaves the first of each type. -/
theorem foldl_addNew_nil (l : List ClassRef) :
    l.foldl catalog.addNew [] = l.eraseDupsBy catalog.sameType := by
  suffices h : ∀ found : List ClassRef, l.foldl catalog.addNew found.reverse =
      List.eraseDupsBy.loop catalog.sameType l found from h []
  induction l with
  | nil => exact fun found => rfl
  | cons i l ih =>
    intro found
    rw [List.foldl_cons, addNew, List.any_reverse, List.eraseDupsBy.loop]
    cases found.any (catalog.sameType i) with
    | true => exact ih found
    | false => simpa using ih (i :: found)

/-! ## A visit adds what is new in the walk -/

/-- If the type of an interface is found, so is all that the interface leads to. -/
def Explored (catalog : Catalog) (found : List ClassRef) (x : ClassRef) : Prop :=
  catalog.Among x found → ∀ y ∈ catalog.preorder x, catalog.Among y found

section Coherent

variable (hcoherent : catalog.Coherent)

include hcoherent

/-- Two declarations of one type lead to the same types in the same order. -/
theorem preorder_congr (hx : x.index < catalog.size) (hy : y.index < catalog.size)
    (h : catalog.sameType x y = true) :
    (catalog.preorder x).map catalog.first = (catalog.preorder y).map catalog.first := by
  have hdepth : ∀ (n : Nat) (i : ClassRef),
      (catalog.preorderWithin n (catalog.first i)).map catalog.first =
        (catalog.preorderWithin n i).map catalog.first := by
    intro n
    induction n with
    | zero => exact fun _ => rfl
    | succ n ih =>
      intro i
      have hinterfaces : (catalog.decl (catalog.first i)).interfaces.map catalog.first =
          (catalog.decl i).interfaces.map catalog.first :=
        congrArg (·.interfaces) (decl_first hcoherent i)
      have hrest := flatMap_map_congr (g := catalog.preorderWithin n) ih hinterfaces
      simp only [preorderWithin, List.map_cons, first_first, hrest]
  have hfirst : ∀ i : ClassRef, (catalog.preorder (catalog.first i)).map catalog.first =
      (catalog.preorder i).map catalog.first := by
    intro i
    have hle : (catalog.first i).index < i.index + 1 := Nat.lt_succ_of_le (catalog.first_le i)
    rw [← preorderWithin_of_lt hle]
    exact hdepth _ i
  have hsame : catalog.first x = catalog.first y := (first_eq_iff hx hy).2 (beq_iff_eq.1 h)
  calc (catalog.preorder x).map catalog.first
      = (catalog.preorder (catalog.first x)).map catalog.first := (hfirst x).symm
    _ = (catalog.preorder (catalog.first y)).map catalog.first := by rw [hsame]
    _ = (catalog.preorder y).map catalog.first := hfirst y

/-- What an interface leads to beyond itself is of other types. -/
theorem not_sameType_of_mem_preorder (hi : i.index < catalog.size)
    (hj : j ∈ (catalog.decl i).interfaces) (hx : x ∈ catalog.preorder j) :
    catalog.sameType x i = false := by
  refine Bool.eq_false_iff.2 fun hsame => ?_
  have hxi := mem_preorder_of_names hj hx
  have hlength := congrArg List.length
    (preorder_congr hcoherent (lt_size_of_mem_preorder hi hxi) hi hsame)
  rw [List.length_map, List.length_map] at hlength
  have hlt := length_lt_of_mem_preorder hj hx
  omega

/-- What is explored stays so when the walk from an interface is added. -/
theorem Explored.foldl_preorder (hx : x.index < catalog.size) (hj : j.index < catalog.size)
    (h : catalog.Explored found x) :
    catalog.Explored ((catalog.preorder j).foldl catalog.addNew found) x := by
  intro hamong y hy
  -- The type of `x` was found before, or on the walk, and then all of `x` is on the walk as well.
  obtain ⟨k, hk, hsame⟩ := hamong
  rcases mem_foldl_addNew hk with hk | hk
  · exact (h ⟨k, hk, hsame⟩ y hy).mono (subset_foldl_addNew _ _)
  · have hwalks := preorder_congr hcoherent hx (lt_size_of_mem_preorder hj hk) hsame
    have hfirst : catalog.first y ∈ (catalog.preorder k).map catalog.first := by
      rw [← hwalks]
      exact List.mem_map_of_mem hy
    obtain ⟨z, hz, hzy⟩ := List.mem_map.1 hfirst
    obtain ⟨k', hk', hsame'⟩ := among_foldl_addNew (preorder_subset hk hz) found
    refine ⟨k', hk', ?_⟩
    rw [← sameType_first, ← hzy, sameType_first]
    exact hsame'

/-- Visits to interfaces, each of which adds what is new in its walk, add what is new in all of
the walks. -/
theorem foldl_visit_eq {l : List ClassRef} (hl : ∀ j ∈ l, j.index < catalog.size)
    (hvisit : ∀ j ∈ l, ∀ found, (∀ x ∈ catalog.preorder j, catalog.Explored found x) →
      catalog.visit found j = (catalog.preorder j).foldl catalog.addNew found)
    (h : ∀ x ∈ l.flatMap catalog.preorder, catalog.Explored found x) :
    l.foldl catalog.visit found = (l.flatMap catalog.preorder).foldl catalog.addNew found := by
  induction l generalizing found with
  | nil => rfl
  | cons j l ih =>
    obtain ⟨hj, hrest⟩ := List.forall_mem_cons.1 hl
    have hfirst := hvisit j List.mem_cons_self found fun x hx =>
      h x (List.mem_flatMap.2 ⟨j, List.mem_cons_self, hx⟩)
    rw [List.foldl_cons, List.flatMap_cons, List.foldl_append, hfirst]
    refine ih hrest (fun k hk => hvisit k (List.mem_cons_of_mem _ hk)) fun x hx => ?_
    obtain ⟨k, hk, hxk⟩ := List.mem_flatMap.1 hx
    have hexplored := h x (List.mem_flatMap.2 ⟨k, List.mem_cons_of_mem _ hk, hxk⟩)
    exact hexplored.foldl_preorder hcoherent (lt_size_of_mem_preorder (hrest k hk) hxk) hj

/-- A visit adds what is new in the walk from the interface. -/
theorem visit_eq_foldl (hi : i.index < catalog.size) (found : List ClassRef)
    (h : ∀ x ∈ catalog.preorder i, catalog.Explored found x) :
    catalog.visit found i = (catalog.preorder i).foldl catalog.addNew found := by
  induction i using interface_induction generalizing found with
  | h i ih =>
    rw [visit_eq]
    split
    · next hany =>
      -- The type is found, and with it everything that the interface leads to.
      have hamong := any_sameType_iff.1 hany
      exact (foldl_addNew_of_among (h i (self_mem_preorder catalog i) hamong)).symm
    · next hnone =>
      have hbelow : ∀ j ∈ (catalog.decl i).interfaces, j.index < catalog.size := fun j hj =>
        Nat.lt_trans ((catalog.restsOn_decl i).2 j hj) hi
      have hadded : catalog.addNew found i = found ++ [i] := if_neg hnone
      rw [preorder_eq i, List.foldl_cons, hadded]
      refine foldl_visit_eq hcoherent hbelow (fun j hj found hfound =>
        ih j hj (hbelow j hj) found hfound) fun x hx => ?_
      -- Of what comes after the interface nothing is of its type, so the new entry is none of it.
      obtain ⟨j, hj, hxj⟩ := List.mem_flatMap.1 hx
      rintro ⟨k, hk, hsame⟩ y hy
      rcases List.mem_append.1 hk with hk | hk
      · have hbefore := h x (mem_preorder_of_names hj hxj) ⟨k, hk, hsame⟩ y hy
        exact hbefore.mono (List.subset_append_left _ _)
      · rw [List.mem_singleton.1 hk, not_sameType_of_mem_preorder hcoherent hi hj hxj] at hsame
        cases hsame

/-- The interfaces of a class are the first of each type on the walk. -/
theorem allInterfaces_eq_eraseDupsBy (c : ClassRef) : catalog.allInterfaces c =
    ((catalog.named c).flatMap catalog.preorder).eraseDupsBy catalog.sameType := by
  have hnone : ∀ x, catalog.Explored [] x := by
    rintro x ⟨k, hk, -⟩
    cases hk
  have hnamed : ∀ j ∈ catalog.named c, j.index < catalog.size := fun j => lt_size_of_mem_named
  rw [← foldl_addNew_nil]
  exact foldl_visit_eq hcoherent hnamed
    (fun j hj found hfound => visit_eq_foldl hcoherent (hnamed j hj) found hfound)
    fun x _ => hnone x

end Coherent

/-! ## The loop -/

end Catalog

/-- A search with the interfaces found and those that are still to be looked at, the next one
first. -/
structure Scan where
  pending : List ClassRef
  found : List ClassRef

namespace Scan

variable {catalog : Catalog}

/-- One turn: the next interface is dropped if its type is found, else kept, and what it names is
looked at before the rest. Without a next interface there is no turn. -/
def turn? (catalog : Catalog) : Scan → Option Scan
  | ⟨[], _⟩ => none
  | ⟨i :: pending, found⟩ =>
    if found.any (catalog.sameType i) then some ⟨pending, found⟩
    else some ⟨(catalog.decl i).interfaces ++ pending, found ++ [i]⟩

/-- Some number of turns lead from one search to another. -/
def Runs (catalog : Catalog) : Scan → Scan → Prop :=
  Relation.ReflTransGen fun s s' => s.turn? catalog = some s'

/-- The loop visits all that is pending, in order, and then it is done. -/
theorem runs_visit (catalog : Catalog) (pending found : List ClassRef) :
    Runs catalog ⟨pending, found⟩ ⟨[], pending.foldl catalog.visit found⟩ := by
  -- On how much the pending interfaces lead to, which each turn makes less.
  induction hn : (pending.flatMap catalog.preorder).length using Nat.strongRecOn
    generalizing pending found with
  | _ n ih =>
    cases pending with
    | nil => exact .refl
    | cons i pending =>
      rw [List.flatMap_cons, Catalog.preorder_eq, List.length_append, List.length_cons] at hn
      rw [List.foldl_cons, Catalog.visit_eq]
      cases hany : found.any (catalog.sameType i) with
      | true =>
        have hturn : turn? catalog ⟨i :: pending, found⟩ = some ⟨pending, found⟩ := if_pos hany
        exact .head hturn (ih _ (by omega) pending found rfl)
      | false =>
        have hturn : turn? catalog ⟨i :: pending, found⟩ =
            some ⟨(catalog.decl i).interfaces ++ pending, found ++ [i]⟩ := by
          rw [turn?, hany]
          rfl
        refine .head hturn ?_
        have hrest := ih _ ?_ ((catalog.decl i).interfaces ++ pending) (found ++ [i]) rfl
        · rw [List.foldl_append] at hrest
          exact hrest
        · rw [List.flatMap_append, List.length_append]
          omega

end Scan

namespace Catalog

variable {catalog : Catalog}

/-- Of a list without two entries of one type, an entry is the only one of its type. -/
theorem filter_sameType_eq_singleton {l : List ClassRef} {i : ClassRef}
    (hpairwise : l.Pairwise fun a b => catalog.sameType b a = false) (hi : catalog.Among i l) :
    ∃ k, l.filter (catalog.sameType i) = [k] := by
  obtain ⟨k, hk, hsame⟩ := hi
  obtain ⟨before, after, rfl⟩ := List.append_of_mem hk
  obtain ⟨-, hafter, hbefore⟩ := List.pairwise_append.1 hpairwise
  have hothers : ∀ x, catalog.sameType k x = false → catalog.sameType i x = false := by
    intro x hx
    rw [sameType_congr (beq_iff_eq.1 hsame)]
    exact hx
  refine ⟨k, ?_⟩
  have hleft : before.filter (catalog.sameType i) = [] := List.filter_eq_nil_iff.2 fun x hx => by
    rw [hothers x (hbefore x hx k List.mem_cons_self)]
    exact Bool.false_ne_true
  have hright : after.filter (catalog.sameType i) = [] := List.filter_eq_nil_iff.2 fun x hx => by
    have hkx := (List.pairwise_cons.1 hafter).1 x hx
    rw [sameType, Bool.beq_comm] at hkx
    rw [hothers x hkx]
    exact Bool.false_ne_true
  rw [List.filter_append, hleft, List.filter_cons_of_pos hsame, hright]
  rfl

/-- Where declarations of one type are equal, the interfaces of a class are those that a walk comes
by that starts from what the class and then each of its bases names and goes on, from each interface
in turn, to what that names: of each type the first. The loop with pending interfaces ends, and ends
with them. Each interface that can be reached is there once by its type, and there is no other. -/
theorem allInterfaces_walk (hcoherent : catalog.Coherent) (c : ClassRef) :
    Scan.Runs catalog ⟨catalog.named c, []⟩ ⟨[], catalog.allInterfaces c⟩ ∧
      catalog.allInterfaces c =
        ((catalog.named c).flatMap catalog.preorder).eraseDupsBy catalog.sameType ∧
      (∀ i, catalog.Reachable c i →
        ∃ k, (catalog.allInterfaces c).filter (catalog.sameType i) = [k]) ∧
      ∀ i ∈ catalog.allInterfaces c, catalog.Reachable c i := by
  have hfirsts := allInterfaces_eq_eraseDupsBy hcoherent c
  have hfold := hfirsts.trans (foldl_addNew_nil _).symm
  refine ⟨Scan.runs_visit catalog _ _, hfirsts, fun i hi => ?_, fun i hi => ?_⟩
  · have hpairwise : (catalog.allInterfaces c).Pairwise
        fun a b => catalog.sameType b a = false := by
      rw [hfold]
      exact pairwise_foldl_addNew _ List.Pairwise.nil
    have hamong : catalog.Among i (catalog.allInterfaces c) := by
      rw [hfold]
      exact among_foldl_addNew (mem_named_flatMap_iff.2 hi) []
    exact filter_sameType_eq_singleton hpairwise hamong
  · rw [hfold] at hi
    rcases mem_foldl_addNew hi with hi | hi
    · cases hi
    · exact mem_named_flatMap_iff.1 hi

/-- Whatever is rowed or sailed floats. A dinghy is rowed, floats by another declaration of that,
and is a boat, which is sailed. -/
def boatyard : Catalog where
  decls :=
    [{ (default : ClassDecl) with identity := ⟨1⟩, name := "Floats", isInterface := true },
      { (default : ClassDecl) with
        identity := ⟨2⟩, name := "Sails", isInterface := true, interfaces := [⟨0⟩] },
      { (default : ClassDecl) with
        identity := ⟨3⟩, name := "Rows", isInterface := true, interfaces := [⟨0⟩] },
      { (default : ClassDecl) with identity := ⟨1⟩, name := "Floats", isInterface := true },
      { (default : ClassDecl) with identity := ⟨4⟩, name := "Boat", interfaces := [⟨1⟩] },
      { (default : ClassDecl) with
        identity := ⟨5⟩, name := "Dinghy", base := some ⟨4⟩, interfaces := [⟨2⟩, ⟨3⟩] }]
  restsOn := by decide

/-- The walk from a dinghy floats three times, the interfaces of a dinghy once. -/
theorem dinghy_floats_once :
    boatyard.Coherent ∧
      (boatyard.named ⟨5⟩).flatMap boatyard.preorder = [⟨2⟩, ⟨0⟩, ⟨3⟩, ⟨1⟩, ⟨0⟩] ∧
      boatyard.allInterfaces ⟨5⟩ = [⟨2⟩, ⟨0⟩, ⟨1⟩] ∧ boatyard.Reachable ⟨5⟩ ⟨3⟩ ∧
      ∃ k, (boatyard.allInterfaces ⟨5⟩).filter (boatyard.sameType ⟨3⟩) = [k] := by
  have hcoherent : boatyard.Coherent := by
    refine .of_first fun c hc => ?_
    match c, hc with
    | ⟨0⟩, _ | ⟨1⟩, _ | ⟨2⟩, _ | ⟨3⟩, _ | ⟨4⟩, _ | ⟨5⟩, _ => rfl
  have hreachable : boatyard.Reachable ⟨5⟩ ⟨3⟩ := ⟨⟨5⟩, by decide, ⟨3⟩, by decide, .refl⟩
  obtain ⟨-, hfirsts, honce, -⟩ := allInterfaces_walk hcoherent ⟨5⟩
  refine ⟨hcoherent, by decide, ?_, hreachable, honce ⟨3⟩ hreachable⟩
  rw [hfirsts]
  decide

end Catalog

end ScriptBoundary
