import Mathlib.Data.List.Nodup
import Mathlib.Data.List.Pairwise
import ScriptBoundary.Classes.Exposure

/-!
# Which claims are taken up

The exposed members of a class come from a list of claims in a fixed order, and the first claim on a
member or on a script name wins. `FirstWins` says so of the first `n` claims by the places of those
that are taken up: no two of them compete, and each claim that is passed over competes with an
earlier one that is taken up. One step of the fold over the claims moves it from `n` to `n + 1`
(`FirstWins.takeUp`), which gives it for all claims (`firstWins_foldl`).

Claims that are taken up never share a script name, so two exposed members of one name come from one
claim. A claim asks twice for one name when it opens a property that can be read and written, and
when the two prefixes of an event are the same (`samePrefixes`). In the second case the functions by
which scripts subscribe and unsubscribe cannot both be reached, and this is the only way in which
names fail to tell exposed members apart (`exposed_distinguishable_iff`).
-/

namespace ScriptBoundary.Catalog

variable (catalog : Catalog) (prefixes : EventPrefixes)

/-- Two claims compete when they are on members of one name or ask for one script name. -/
def Compete (a b : Claim) : Prop :=
  a.member = b.member ∨
    ∃ x ∈ catalog.expand prefixes a, ∃ y ∈ catalog.expand prefixes b, x.name = y.name

/-- Of the first `n` claims those at the places `taken` are taken up, the first of any that compete,
and `out` are the members that they ask for. -/
structure FirstWins (claims : List Claim) (n : Nat) (taken : List (Fin claims.length))
    (out : List ExposedMember) : Prop where
  below : ∀ i ∈ taken, i.val < n
  ordered : taken.Pairwise (· < ·)
  /-- The members come in the order of the claims. -/
  out_eq : out = taken.flatMap fun i => catalog.expand prefixes claims[i]
  apart : ∀ i ∈ taken, ∀ j ∈ taken, i < j → ¬ catalog.Compete prefixes claims[i] claims[j]
  /-- A claim is passed over only for an earlier one. -/
  maximal : ∀ i : Fin claims.length, i.val < n → i ∉ taken →
    ∃ j ∈ taken, j < i ∧ catalog.Compete prefixes claims[j] claims[i]

/-- A descriptor registered for a class or one of its bases that names no member of that type. -/
def Stray (registrations : Registrations) (c : ClassRef) (claim : Claim) : Prop :=
  claim.declaring ∈ catalog.ancestors c ∧
    (⟨claim.member, claim.expose⟩ : Descriptor) ∈
      registrations.of (catalog.identity claim.declaring) ∧
    ¬ catalog.hasMember claim.declaring claim.expose.category claim.member

/-- A type opens a member by an annotation of its own or by a registered descriptor. -/
def OptsIn (registrations : Registrations) (type : ClassRef) (member : String) : Prop :=
  ∃ expose, (member, expose) ∈ (catalog.decl type).annotations ∨
    (⟨member, expose⟩ : Descriptor) ∈ registrations.of (catalog.identity type)

/-! ## What a claim asks for -/

/-- What a claim asks for is of its member and its class. -/
theorem of_mem_expand {claim : Claim} {x : ExposedMember} (h : x ∈ catalog.expand prefixes claim) :
    x.member = claim.member ∧ x.declaring = claim.declaring := by
  obtain ⟨declaring, member, expose⟩ := claim
  cases expose with
  | function name =>
    obtain rfl := List.mem_singleton.1 h
    exact ⟨rfl, rfl⟩
  | property name readOnly =>
    rcases List.mem_cons.1 h with rfl | h
    · exact ⟨rfl, rfl⟩
    · split at h
      · obtain rfl := List.mem_singleton.1 h
        exact ⟨rfl, rfl⟩
      · cases h
  | event name add remove =>
    rcases List.mem_cons.1 h with rfl | h
    · exact ⟨rfl, rfl⟩
    · obtain rfl := List.mem_singleton.1 h
      exact ⟨rfl, rfl⟩

/-- Every claim asks for something. -/
theorem expand_ne_nil (claim : Claim) : catalog.expand prefixes claim ≠ [] := by
  obtain ⟨declaring, member, expose⟩ := claim
  cases expose <;> exact List.cons_ne_nil _ _

/-- What a claim asks for has no member twice. -/
theorem nodup_expand (claim : Claim) :
    (catalog.expand prefixes claim).Nodup := by
  obtain ⟨declaring, member, expose⟩ := claim
  cases expose with
  | function name => exact List.nodup_singleton _
  | property name readOnly =>
    refine List.nodup_cons.2 ⟨?_, ?_⟩
    · split <;> simp
    · split
      · exact List.nodup_singleton _
      · exact List.nodup_nil
  | event name add remove => simp [expand]

/-! ## One claim after the other -/

variable {catalog prefixes} {claims : List Claim} {n : Nat} {taken : List (Fin claims.length)}
  {out : List ExposedMember}

/-- A claim is passed over when it competes with one that is taken up. -/
theorem FirstWins.refused_iff (h : catalog.FirstWins prefixes claims n taken out) (claim : Claim) :
    (out.any (·.member == claim.member) ∨
        (catalog.expand prefixes claim).any fun a => out.any (·.name == a.name)) ↔
      ∃ j ∈ taken, catalog.Compete prefixes claims[j] claim := by
  have hout : ∀ x, x ∈ out ↔ ∃ j ∈ taken, x ∈ catalog.expand prefixes claims[j] := by
    intro x
    rw [h.out_eq]
    exact List.mem_flatMap
  constructor
  · rintro (hm | hn)
    · obtain ⟨x, hx, hxm⟩ := List.any_eq_true.1 hm
      obtain ⟨j, hj, hxj⟩ := (hout x).1 hx
      refine ⟨j, hj, .inl ?_⟩
      rw [← (catalog.of_mem_expand prefixes hxj).1]
      exact beq_iff_eq.1 hxm
    · obtain ⟨y, hy, hyn⟩ := List.any_eq_true.1 hn
      obtain ⟨x, hx, hxy⟩ := List.any_eq_true.1 hyn
      obtain ⟨j, hj, hxj⟩ := (hout x).1 hx
      exact ⟨j, hj, .inr ⟨x, hxj, y, hy, beq_iff_eq.1 hxy⟩⟩
  · rintro ⟨j, hj, hm | ⟨x, hx, y, hy, hxy⟩⟩
    · obtain ⟨x, hx⟩ := List.exists_mem_of_ne_nil _ (catalog.expand_ne_nil prefixes claims[j])
      refine .inl (List.any_eq_true.2 ⟨x, (hout x).2 ⟨j, hj, hx⟩, beq_iff_eq.2 ?_⟩)
      rw [(catalog.of_mem_expand prefixes hx).1, hm]
    · exact .inr (List.any_eq_true.2 ⟨y, hy, List.any_eq_true.2
        ⟨x, (hout x).2 ⟨j, hj, hx⟩, beq_iff_eq.2 hxy⟩⟩)

/-- Taking up the next claim, or passing it over, keeps to the rule. -/
theorem FirstWins.takeUp (h : catalog.FirstWins prefixes claims n taken out)
    (hn : n < claims.length) :
    ∃ taken', catalog.FirstWins prefixes claims (n + 1) taken'
      (catalog.takeUp prefixes out claims[n]) := by
  have hrefused := h.refused_iff claims[n]
  by_cases hc : ∃ j ∈ taken, catalog.Compete prefixes claims[j] claims[n]
  · -- The claim competes, so the places stay and the new one has its reason.
    refine ⟨taken, ⟨fun i hi => Nat.lt_succ_of_lt (h.below i hi), h.ordered, ?_, h.apart, ?_⟩⟩
    · have : catalog.takeUp prefixes out claims[n] = out := by
        rcases hrefused.2 hc with hm | hx
        · simp only [Catalog.takeUp, hm, if_true]
        · simp only [Catalog.takeUp, hx, if_true, ite_self]
      rw [this]
      exact h.out_eq
    · intro i hi hi'
      rcases Nat.lt_succ_iff_lt_or_eq.1 hi with hlt | heq
      · exact h.maximal i hlt hi'
      · obtain rfl : i = ⟨n, hn⟩ := Fin.ext heq
        obtain ⟨j, hj, hjc⟩ := hc
        exact ⟨j, hj, Fin.lt_def.2 (h.below j hj), hjc⟩
  · -- The claim competes with none, so its place goes to the end.
    refine ⟨taken ++ [⟨n, hn⟩], ⟨?_, ?_, ?_, ?_, ?_⟩⟩
    · intro i hi
      rcases List.mem_append.1 hi with hi | hi
      · exact Nat.lt_succ_of_lt (h.below i hi)
      · obtain rfl := List.mem_singleton.1 hi
        exact Nat.lt_succ_self n
    · refine List.pairwise_append.2 ⟨h.ordered, List.pairwise_singleton _ _, ?_⟩
      intro i hi j hj
      obtain rfl := List.mem_singleton.1 hj
      exact Fin.lt_def.2 (h.below i hi)
    · have hfree := mt hrefused.1 hc
      simp only [not_or, Bool.not_eq_true] at hfree
      simp only [Catalog.takeUp, hfree.1, hfree.2, Bool.false_eq_true, if_false]
      rw [List.flatMap_append, ← h.out_eq, List.flatMap_singleton]
      rfl
    · intro i hi j hj hij
      rcases List.mem_append.1 hi with hi | hi
      · rcases List.mem_append.1 hj with hj | hj
        · exact h.apart i hi j hj hij
        · obtain rfl := List.mem_singleton.1 hj
          exact fun hcompete => hc ⟨i, hi, hcompete⟩
      · obtain rfl := List.mem_singleton.1 hi
        rcases List.mem_append.1 hj with hj | hj
        · exact absurd (h.below j hj) (Nat.not_lt_of_lt (Fin.lt_def.1 hij))
        · obtain rfl := List.mem_singleton.1 hj
          exact absurd (Fin.lt_def.1 hij) (Nat.lt_irrefl n)
    · intro i hi hi'
      rcases Nat.lt_succ_iff_lt_or_eq.1 hi with hlt | heq
      · have hmem : i ∉ taken := fun hm => hi' (List.mem_append_left _ hm)
        obtain ⟨j, hj, hji, hjc⟩ := h.maximal i hlt hmem
        exact ⟨j, List.mem_append_left _ hj, hji, hjc⟩
      · obtain rfl : i = ⟨n, hn⟩ := Fin.ext heq
        exact absurd (List.mem_append_right _ (List.mem_singleton_self _)) hi'

/-- The rule holds of all claims once they have been gone through. -/
theorem firstWins_foldl (catalog : Catalog) (prefixes : EventPrefixes) (claims : List Claim) :
    ∃ taken, catalog.FirstWins prefixes claims claims.length taken
      (claims.foldl (catalog.takeUp prefixes) []) := by
  -- By induction on how many of the claims have been gone through.
  suffices ∀ n, n ≤ claims.length → ∃ taken, catalog.FirstWins prefixes claims n taken
      ((claims.take n).foldl (catalog.takeUp prefixes) []) by
    simpa using this claims.length (Nat.le_refl _)
  intro n
  induction n with
  | zero =>
    intro _
    exact ⟨[], ⟨fun i hi => absurd hi List.not_mem_nil, List.Pairwise.nil, rfl,
      fun i hi => absurd hi List.not_mem_nil, fun i hi => absurd hi (Nat.not_lt_zero _)⟩⟩
  | succ n ih =>
    intro hn
    obtain ⟨taken, h⟩ := ih (Nat.le_of_succ_le hn)
    rw [List.take_succ_eq_append_getElem hn, List.foldl_append]
    exact h.takeUp hn

/-- Competing goes both ways. -/
theorem Compete.symm {a b : Claim} (h : catalog.Compete prefixes a b) :
    catalog.Compete prefixes b a := by
  rcases h with hm | ⟨x, hx, y, hy, hxy⟩
  · exact .inl hm.symm
  · exact .inr ⟨y, hy, x, hx, hxy.symm⟩

/-- Claims that are taken up and compete are one claim. -/
theorem FirstWins.eq_of_compete (h : catalog.FirstWins prefixes claims n taken out)
    {i j : Fin claims.length} (hi : i ∈ taken) (hj : j ∈ taken)
    (hij : catalog.Compete prefixes claims[i] claims[j]) : i = j := by
  rcases Nat.lt_trichotomy i.val j.val with hlt | heq | hgt
  · exact absurd hij (h.apart i hi j hj (Fin.lt_def.2 hlt))
  · exact Fin.ext heq
  · exact absurd hij.symm (h.apart j hj i hi (Fin.lt_def.2 hgt))

/-- Exposed members of one member name, or of one script name, come from one claim. -/
theorem FirstWins.exists_claim (h : catalog.FirstWins prefixes claims n taken out)
    {a b : ExposedMember} (ha : a ∈ out) (hb : b ∈ out)
    (hab : a.member = b.member ∨ a.name = b.name) :
    ∃ i ∈ taken, a ∈ catalog.expand prefixes claims[i] ∧ b ∈ catalog.expand prefixes claims[i] := by
  rw [h.out_eq] at ha hb
  obtain ⟨i, hi, hai⟩ := List.mem_flatMap.1 ha
  obtain ⟨j, hj, hbj⟩ := List.mem_flatMap.1 hb
  -- Were they of two claims, these would compete, and both are taken up.
  have hcompete : catalog.Compete prefixes claims[i] claims[j] := by
    rcases hab with hab | hab
    · refine .inl ?_
      rw [← (catalog.of_mem_expand prefixes hai).1, hab, (catalog.of_mem_expand prefixes hbj).1]
    · exact .inr ⟨a, hai, b, hbj, hab⟩
  obtain rfl := h.eq_of_compete hi hj hcompete
  exact ⟨i, hi, hai, hbj⟩

/-- What a claim that is taken up asks for is exposed. -/
theorem FirstWins.expand_subset (h : catalog.FirstWins prefixes claims n taken out)
    {i : Fin claims.length} (hi : i ∈ taken) : catalog.expand prefixes claims[i] ⊆ out := by
  intro x hx
  rw [h.out_eq]
  exact List.mem_flatMap.2 ⟨i, hi, hx⟩

/-- Two exposed members are related when any two that one claim asks for are, and any two of
different script names. -/
theorem FirstWins.pairwise_out (h : catalog.FirstWins prefixes claims n taken out)
    {related : ExposedMember → ExposedMember → Prop}
    (hclaim : ∀ i ∈ taken, (catalog.expand prefixes claims[i]).Pairwise related)
    (hname : ∀ a b, a.name ≠ b.name → related a b) : out.Pairwise related := by
  rw [h.out_eq]
  refine List.pairwise_flatMap.2 ⟨hclaim, ?_⟩
  refine h.ordered.imp_of_mem fun hi hj hij a ha b hb => hname a b fun hab => ?_
  exact h.apart _ hi _ hj hij (.inr ⟨a, ha, b, hb, hab⟩)

/-! ## The exposed members of a class -/

variable (catalog prefixes) (registrations : Registrations) (c : ClassRef)

/-- The registered claims of the bases of a class are those of the descriptors for them. -/
theorem mem_registeredClaims_ancestors_iff {claim : Claim} :
    claim ∈ (catalog.ancestors c).flatMap (catalog.registeredClaims registrations) ↔
      claim.declaring ∈ catalog.ancestors c ∧
        (⟨claim.member, claim.expose⟩ : Descriptor) ∈
          registrations.of (catalog.identity claim.declaring) := by
  constructor
  · intro h
    obtain ⟨a, ha, hclaim⟩ := List.mem_flatMap.1 h
    obtain ⟨d, hd, rfl⟩ := List.mem_map.1 hclaim
    exact ⟨ha, hd⟩
  · rintro ⟨ha, hd⟩
    exact List.mem_flatMap.2 ⟨claim.declaring, ha, List.mem_map.2 ⟨_, hd, rfl⟩⟩

/-- A claim that is found to be stray is. -/
theorem stray_of_strayClaim? {claim : Claim}
    (h : catalog.strayClaim? registrations c = some claim) :
    catalog.Stray registrations c claim := by
  have hmem := (catalog.mem_registeredClaims_ancestors_iff registrations c).1
    (List.mem_of_find?_eq_some h)
  have hno := List.find?_some h
  rw [Bool.not_eq_true', claimsMember] at hno
  exact ⟨hmem.1, hmem.2, by rw [hno]; exact Bool.false_ne_true⟩

/-- Where none is found there is none. -/
theorem not_stray_of_strayClaim? (h : catalog.strayClaim? registrations c = none) (claim : Claim) :
    ¬ catalog.Stray registrations c claim := by
  rintro ⟨ha, hd, hno⟩
  have hmem := (catalog.mem_registeredClaims_ancestors_iff registrations c).2 ⟨ha, hd⟩
  have hall := List.find?_eq_none.1 h claim hmem
  rw [Bool.not_eq_true', Bool.not_eq_false] at hall
  exact hno hall

/-- A claim is made by the class, one of its bases or one of its interfaces, which opens the
member. -/
theorem optsIn_of_mem_claims {claim : Claim} (h : claim ∈ catalog.claims registrations c) :
    (claim.declaring ∈ catalog.ancestors c ∨ claim.declaring ∈ catalog.allInterfaces c) ∧
      catalog.OptsIn registrations claim.declaring claim.member := by
  have hannotated : ∀ {t}, claim ∈ catalog.annotatedClaims t → claim.declaring = t ∧
      (claim.member, claim.expose) ∈ (catalog.decl t).annotations := by
    intro t ht
    obtain ⟨⟨member, expose⟩, hme, rfl⟩ := List.mem_map.1 ht
    exact ⟨rfl, hme⟩
  have hregistered : ∀ {t}, claim ∈ catalog.registeredClaims registrations t →
      claim.declaring = t ∧
        (⟨claim.member, claim.expose⟩ : Descriptor) ∈ registrations.of (catalog.identity t) := by
    intro t ht
    obtain ⟨d, hd, rfl⟩ := List.mem_map.1 ht
    exact ⟨rfl, hd⟩
  -- First the class and its bases, then its interfaces.
  rcases List.mem_append.1 h with h | h
  · obtain ⟨t, ht, hclaim⟩ := List.mem_flatMap.1 h
    rcases List.mem_append.1 hclaim with hclaim | hclaim
    · obtain ⟨rfl, he⟩ := hannotated hclaim
      exact ⟨.inl ht, claim.expose, .inl he⟩
    · obtain ⟨rfl, he⟩ := hregistered hclaim
      exact ⟨.inl ht, claim.expose, .inr he⟩
  · obtain ⟨t, ht, hclaim⟩ := List.mem_flatMap.1 h
    rcases List.mem_append.1 hclaim with hclaim | hclaim
    · obtain ⟨rfl, he⟩ := hannotated hclaim
      exact ⟨.inr ht, claim.expose, .inl he⟩
    · obtain ⟨rfl, he⟩ := hregistered (List.mem_filter.1 hclaim).1
      exact ⟨.inr ht, claim.expose, .inr he⟩

/-- The exposed members of a class are those of the claims that are taken up. -/
theorem exists_firstWins_of_exposed {out : List ExposedMember}
    (h : catalog.exposed prefixes registrations c = .ok out) :
    ∃ taken, catalog.FirstWins prefixes (catalog.claims registrations c)
      (catalog.claims registrations c).length taken out := by
  unfold exposed at h
  split at h
  · cases h
  · cases h
    exact firstWins_foldl catalog prefixes (catalog.claims registrations c)

/-- Resolution fails exactly when a descriptor registered for the class or one of its bases names no
member. Otherwise the exposed members are what the claims that are taken up ask for: in the order of
the claims, of two that compete the first, none passed over without cause, and all that is exposed
under one member name from a single claim. -/
theorem exposed_firstWins :
    match catalog.exposed prefixes registrations c with
    | .error e => ∃ claim, catalog.Stray registrations c claim ∧
        e = .unknownMember (catalog.name claim.declaring) claim.member claim.expose.category
    | .ok out => (∀ claim, ¬ catalog.Stray registrations c claim) ∧
        (∃ taken, catalog.FirstWins prefixes (catalog.claims registrations c)
            (catalog.claims registrations c).length taken out ∧
          ∀ a ∈ out, ∀ b ∈ out, a.member = b.member → ∃ i ∈ taken,
            a ∈ catalog.expand prefixes (catalog.claims registrations c)[i] ∧
              b ∈ catalog.expand prefixes (catalog.claims registrations c)[i]) ∧
        ∀ a ∈ out,
          (a.declaring ∈ catalog.ancestors c ∨ a.declaring ∈ catalog.allInterfaces c) ∧
            catalog.OptsIn registrations a.declaring a.member := by
  unfold exposed
  cases hstray : catalog.strayClaim? registrations c with
  | some claim => exact ⟨claim, catalog.stray_of_strayClaim? registrations c hstray, rfl⟩
  | none =>
    obtain ⟨taken, h⟩ := firstWins_foldl catalog prefixes (catalog.claims registrations c)
    refine ⟨catalog.not_stray_of_strayClaim? registrations c hstray,
      ⟨taken, h, fun a ha b hb hab => h.exists_claim ha hb (.inl hab)⟩, ?_⟩
    intro a ha
    obtain ⟨i, -, hai, -⟩ := h.exists_claim ha ha (.inl rfl)
    obtain ⟨hm, hd⟩ := catalog.of_mem_expand prefixes hai
    rw [hm, hd]
    exact catalog.optsIn_of_mem_claims registrations c (List.getElem_mem _)

/-! ## Names of exposed members -/

/-- The getter and the setter of one property. -/
def AccessorPair (a b : ExposedMember) : Prop :=
  a.member = b.member ∧ a.declaring = b.declaring ∧ a.role = .getter ∧ b.role = .setter

/-- The functions by which scripts subscribe to one event and unsubscribe from it. -/
def EventPair (a b : ExposedMember) : Prop :=
  a.member = b.member ∧ a.declaring = b.declaring ∧ a.role = .subscribe ∧ b.role = .unsubscribe

instance (a b : ExposedMember) : Decidable (AccessorPair a b) :=
  inferInstanceAs (Decidable (_ ∧ _))

/-- A name tells exposed members apart, up to the two halves of a property. -/
def Distinguishable (out : List ExposedMember) : Prop :=
  out.Pairwise fun a b => a.name = b.name → AccessorPair a b

instance (out : List ExposedMember) : Decidable (Distinguishable out) :=
  inferInstanceAs (Decidable (out.Pairwise _))

/-- The two prefixes of an event claim, its own or the configured ones, are the same. -/
def samePrefixes (claim : Claim) : Bool :=
  match claim.expose with
  | .event _ add remove => add.getD prefixes.add == remove.getD prefixes.remove
  | _ => false

/-- One claim asks twice for a name only for the halves of a property or of an event. -/
theorem expand_pairwise (claim : Claim) :
    (catalog.expand prefixes claim).Pairwise fun a b =>
      a.name = b.name → AccessorPair a b ∨ (EventPair a b ∧ samePrefixes prefixes claim) := by
  obtain ⟨declaring, member, expose⟩ := claim
  cases expose with
  | function name => exact List.pairwise_singleton _ _
  | property name readOnly =>
    refine List.pairwise_cons.2 ⟨fun b hb _ => ?_, ?_⟩
    · split at hb
      · obtain rfl := List.mem_singleton.1 hb
        exact .inl ⟨rfl, rfl, rfl, rfl⟩
      · cases hb
    · split
      · exact List.pairwise_singleton _ _
      · exact List.Pairwise.nil
  | event name add remove =>
    refine List.pairwise_cons.2 ⟨fun b hb hab => ?_, List.pairwise_singleton _ _⟩
    obtain rfl := List.mem_singleton.1 hb
    have hprefix := (String.append_left_inj _).1 hab
    exact .inr ⟨⟨rfl, rfl, rfl, rfl⟩, beq_iff_eq.2 hprefix⟩

/-- A claim on an event with one prefix for both functions asks twice for one name. -/
theorem exists_shared_name {claim : Claim} (h : samePrefixes prefixes claim) :
    ∃ a ∈ catalog.expand prefixes claim, ∃ b ∈ catalog.expand prefixes claim,
      a.name = b.name ∧ a.role = .subscribe ∧ b.role = .unsubscribe := by
  obtain ⟨declaring, member, expose⟩ := claim
  cases expose with
  | function name => cases h
  | property name readOnly => cases h
  | event name add remove =>
    exact ⟨_, List.mem_cons_self, _, List.mem_cons_of_mem _ List.mem_cons_self,
      (String.append_left_inj _).2 (beq_iff_eq.1 h), rfl, rfl⟩

/-- The members share a name only if both belong to properties. -/
def ShareAsProperties (a b : ExposedMember) : Prop :=
  a.name = b.name → a.role.category = .property ∧ b.role.category = .property

instance : Std.Symm ShareAsProperties := ⟨fun _ _ h hname => (h hname.symm).symm⟩

/-- Where a name tells members apart, two that share one belong to properties. -/
theorem Distinguishable.shareAsProperties {out : List ExposedMember} (h : Distinguishable out)
    {a b : ExposedMember} (ha : a ∈ out) (hb : b ∈ out) (hne : a ≠ b) : ShareAsProperties a b := by
  have hpairs : out.Pairwise ShareAsProperties := by
    refine h.imp fun hab hname => ?_
    obtain ⟨-, -, hra, hrb⟩ := hab hname
    rw [hra, hrb]
    exact ⟨rfl, rfl⟩
  exact hpairs.forall ha hb hne

/-- Two exposed members of a class share a name only as the halves of one property or of one event,
and names tell all of them apart exactly when no event that is exposed has the same prefix for both
of its functions. -/
theorem exposed_distinguishable_iff {out : List ExposedMember}
    (h : catalog.exposed prefixes registrations c = .ok out) :
    (out.Pairwise fun a b => a.name = b.name → AccessorPair a b ∨ EventPair a b) ∧
      (Distinguishable out ↔ ∀ claim ∈ catalog.claims registrations c,
        catalog.expand prefixes claim ⊆ out → ¬ samePrefixes prefixes claim) := by
  have hout : out = (catalog.claims registrations c).foldl (catalog.takeUp prefixes) [] := by
    unfold exposed at h
    split at h
    · cases h
    · exact (Except.ok.inj h).symm
  obtain ⟨taken, hw⟩ := firstWins_foldl catalog prefixes (catalog.claims registrations c)
  rw [← hout] at hw
  refine ⟨?_, ?_, ?_⟩
  · refine hw.pairwise_out (fun i _ => ?_) fun a b hab hname => absurd hname hab
    refine (catalog.expand_pairwise prefixes _).imp fun hab hname => ?_
    exact (hab hname).imp_right And.left
  · -- The two functions of the event share a name, and neither belongs to a property.
    intro hd claim _ hsub hsame
    obtain ⟨a, ha, b, hb, hname, hra, hrb⟩ := catalog.exists_shared_name prefixes hsame
    have hne : a ≠ b := by
      rintro rfl
      rw [hra] at hrb
      cases hrb
    have hproperty := (hd.shareAsProperties (hsub ha) (hsub hb) hne hname).1
    rw [hra] at hproperty
    cases hproperty
  · intro hno
    refine hw.pairwise_out (fun i hi => ?_) fun a b hab hname => absurd hname hab
    refine (catalog.expand_pairwise prefixes _).imp fun hab hname => ?_
    rcases hab hname with haccessors | ⟨-, hsame⟩
    · exact haccessors
    · exact absurd hsame (hno _ (List.getElem_mem _) (hw.expand_subset hi))

/-- Two widgets. The clock's event has one prefix for both of its functions; the lamp has a property
that can be written and an event with the configured prefixes. -/
def widgets : Catalog where
  decls :=
    [{ (default : ClassDecl) with
        identity := ⟨1⟩, name := "Clock",
        events := [⟨"Tick", .undeclared, some (.event none (some "on") (some "on")), none⟩] },
      { (default : ClassDecl) with
        identity := ⟨2⟩, name := "Lamp",
        properties := [⟨"Lit", .bool, some (.property (some "lit") false), none, .abstract true⟩],
        events := [⟨"Switched", .undeclared, some (.event none none none), none⟩] }]
  restsOn := by decide

/-- The lamp's members can be told apart. -/
theorem lamp_distinguishable :
    widgets.exposed {} [] ⟨1⟩ =
        .ok [⟨"lit", "Lit", .getter, ⟨1⟩⟩, ⟨"lit", "Lit", .setter, ⟨1⟩⟩,
          ⟨"addSwitched", "Switched", .subscribe, ⟨1⟩⟩,
          ⟨"removeSwitched", "Switched", .unsubscribe, ⟨1⟩⟩] ∧
      Distinguishable [⟨"lit", "Lit", .getter, ⟨1⟩⟩, ⟨"lit", "Lit", .setter, ⟨1⟩⟩,
          ⟨"addSwitched", "Switched", .subscribe, ⟨1⟩⟩,
          ⟨"removeSwitched", "Switched", .unsubscribe, ⟨1⟩⟩] := by
  refine ⟨rfl, (exposed_distinguishable_iff widgets {} [] ⟨1⟩ rfl).2.2 fun claim hclaim _ => ?_⟩
  have hall : (widgets.claims [] ⟨1⟩).all (!samePrefixes {} ·) = true := by decide
  simpa using List.all_eq_true.1 hall claim hclaim

/-- The functions by which scripts subscribe to the clock's event and unsubscribe from it have one
name. -/
theorem clock_not_distinguishable :
    widgets.exposed {} [] ⟨0⟩ =
        .ok [⟨"onTick", "Tick", .subscribe, ⟨0⟩⟩, ⟨"onTick", "Tick", .unsubscribe, ⟨0⟩⟩] ∧
      ¬ Distinguishable
        [⟨"onTick", "Tick", .subscribe, ⟨0⟩⟩, ⟨"onTick", "Tick", .unsubscribe, ⟨0⟩⟩] :=
  ⟨rfl, by decide⟩

end ScriptBoundary.Catalog
