import Mathlib.Data.Finset.Card
import Mathlib.Data.Finset.SDiff
import ScriptBoundary.Proofs.Histories

/-!
# One definition for each type

In all states of a history the definitions that are kept stand under the identities of their own
types, one for each, and as many were built. A definition that is kept stays and is what building
gives from then on. Building always comes to an outcome, also where classes mention each other: each
nested building is of a type that is not under way, and there are only so many types.
-/

namespace ScriptBoundary

open Run

namespace Catalog

variable (catalog : Catalog)

/-! ## Building comes to an end -/

/-- The identities of all types; a place without a declaration counts as one more type. -/
def identities : Finset TypeId :=
  insert (default : ClassDecl).identity (catalog.decls.map ClassDecl.identity).toFinset

theorem identity_mem_identities (c : ClassRef) : catalog.identity c ∈ catalog.identities := by
  rw [identities, Finset.mem_insert, identity, decl, List.getD_eq_getElem?_getD]
  cases hd : catalog.decls[c.index]? with
  | none => exact .inl rfl
  | some d => exact .inr (List.mem_toFinset.2 (List.mem_map_of_mem (List.mem_of_getElem? hd)))

theorem card_identities_le : catalog.identities.card ≤ catalog.size + 1 := by
  refine (Finset.card_insert_le _ _).trans (Nat.succ_le_succ ?_)
  exact (List.toFinset_card_le _).trans (Nat.le_of_eq (List.length_map _))

/-- How many types are not under way. -/
def room (underWay : List TypeId) : Nat := (catalog.identities \ underWay.toFinset).card

/-- One more type under way leaves less room. -/
theorem room_cons_lt {underWay : List TypeId} {c : ClassRef}
    (hc : catalog.identity c ∉ underWay) :
    catalog.room (catalog.identity c :: underWay) < catalog.room underWay := by
  refine Finset.card_lt_card (Finset.ssubset_iff_of_subset ?_ |>.2 ⟨catalog.identity c, ?_, ?_⟩)
  · refine Finset.sdiff_subset_sdiff subset_rfl ?_
    rw [List.toFinset_cons]
    exact Finset.subset_insert _ _
  · rw [Finset.mem_sdiff, List.mem_toFinset]
    exact ⟨catalog.identity_mem_identities c, hc⟩
  · rw [Finset.mem_sdiff, List.toFinset_cons]
    exact fun h => h.2 (Finset.mem_insert_self _ _)

theorem answers_prebuild {n : Nat} {underWay : List TypeId}
    (hbuild : ∀ c, catalog.identity c ∉ underWay → (catalog.build n underWay c).Answers)
    (settings : Settings) (mentioned : List ClassRef) :
    (catalog.prebuild n underWay settings mentioned).Answers := by
  unfold prebuild
  split
  · refine .forM fun other _ => ?_
    split
    · exact .pure ()
    · next hother =>
      refine .bind (.read _) fun kept => ?_
      split
      · exact .bind (hbuild other (not_mem_of_not_passed hother)) fun _ => .pure ()
      · exact .pure ()
  · exact .pure ()

/-- Building comes to an outcome, when as many more types may come under way as there are. -/
theorem answers_build (n : Nat) (underWay : List TypeId) (c : ClassRef)
    (hc : catalog.identity c ∉ underWay) (hroom : catalog.room underWay ≤ n) :
    (catalog.build n underWay c).Answers := by
  have hless := catalog.room_cons_lt hc
  -- The bound falls by one with each nested building, and the room by at least one.
  induction n generalizing underWay c with
  | zero => omega
  | succ n ih =>
    intro w
    cases hd : w.exposer.definition? (catalog.identity c) with
    | some d => exact ⟨_, _, build_of_kept hd⟩
    | none =>
      cases hm : catalog.exposed w.exposer.settings.events w.exposer.registrations c with
      | error e => exact ⟨_, _, build_of_unresolved hd hm⟩
      | ok members =>
        cases hp : catalog.plans c members with
        | error e => exact ⟨_, _, build_of_unplanned hd hm hp⟩
        | ok planned =>
          obtain ⟨plans, constructors, mentioned⟩ := planned
          rw [build_of_planned hd hm hp]
          refine Answers.bind (catalog.answers_prebuild (fun other hother => ?_) _ _) ?_ w
          · exact ih _ other hother (by omega) (catalog.room_cons_lt hother)
          · intro _ u
            obtain ⟨d, hu⟩ := catalog.complete_apply c w.exposer.settings plans constructors u
            exact ⟨_, _, hu⟩

theorem answers_definitionOf (c : ClassRef) : (catalog.definitionOf c).Answers := by
  refine catalog.answers_build _ [] c List.not_mem_nil ?_
  exact (Finset.card_le_card Finset.sdiff_subset).trans catalog.card_identities_le

/-! ## What building leaves -/

variable {catalog}

/-- The definitions stand under the identities of their own types, one for each type, and no more
were built. -/
structure OneEach (catalog : Catalog) (e : Exposer) : Prop where
  own : ∀ t d, (t, d) ∈ e.definitions → catalog.identity d.declaration = t
  once : (Keyed.keys e.definitions).Nodup
  built : e.builds = e.definitions.length

namespace OneEach

variable {e : Exposer}

theorem init (settings : Settings) : catalog.OneEach { settings } where
  own _ _ h := by cases h
  once := List.nodup_nil
  built := rfl

/-- Keeping a definition for a type that has none. -/
theorem keep (he : catalog.OneEach e) {c : ClassRef} {d : Definition} (hown : d.declaration = c)
    (habsent : e.definition? (catalog.identity c) = none) :
    catalog.OneEach (e.keep (catalog.identity c) d) := by
  have hnew : catalog.identity c ∉ Keyed.keys e.definitions := Keyed.get?_eq_none_iff.1 habsent
  rw [Exposer.keep_of_absent habsent]
  refine ⟨fun t x hx => ?_, ?_, ?_⟩
  · rcases List.mem_append.1 hx with hx | hx
    · exact he.own t x hx
    · cases List.mem_singleton.1 hx
      rw [hown]
  · rw [← Keyed.put_of_not_mem hnew]
    exact Keyed.nodup_keys_put he.once _ _
  · rw [List.length_append, ← he.built]
    rfl

theorem of_move {w w' : World} (h : catalog.Move w w') (hw : catalog.OneEach w.exposer) :
    catalog.OneEach w'.exposer := by
  cases h with
  | build absent resolved planned => exact hw.keep rfl absent
  | bind => exact ⟨hw.own, hw.once, hw.built⟩
  | _ => exact hw

theorem of_adjusts {w w' : World} (h : w.Adjusts w') (hw : catalog.OneEach w.exposer) :
    catalog.OneEach w'.exposer := by
  obtain ⟨_, _, _, _, rfl⟩ := h
  exact ⟨hw.own, hw.once, hw.built⟩

end OneEach

/-- A definition that is kept stays. -/
theorem definition?_of_visits {t : TypeId} {d : Definition} {w u : World}
    (hu : Session.Visits catalog w u) (hw : w.exposer.definition? t = some d) :
    u.exposer.definition? t = some d := by
  refine hu.invariant (P := fun w => w.exposer.definition? t = some d) ?_ ?_ hw
  · intro w w' hmove hw
    cases hmove with
    | build absent =>
      -- What is built is of a type that had no definition, so of another one.
      refine (Exposer.definition?_keep_of_ne ?_ _ _).trans hw
      rintro rfl
      rw [absent] at hw
      cases hw
    | _ => exact hw
  · rintro w _ ⟨_, _, _, _, rfl⟩ hw
    exact hw

/-- A factory is for the interface that was asked for, by the definition that is then kept for it. -/
theorem of_exposeInterface {c : ClassRef} {factory : Factory} {u w : World}
    (h : catalog.exposeInterface c u = some (.ok factory, w)) :
    catalog.isInterface c = true ∧ factory.interface = c ∧
      w.exposer.definition? (catalog.identity c) = some factory.definition := by
  unfold exposeInterface at h
  cases hi : catalog.isInterface c with
  | false =>
    rw [hi] at h
    cases h
  | true =>
    rw [hi] at h
    obtain ⟨d, v, hbuild, hreturn⟩ := bind_ok_cases h
    cases hreturn
    exact ⟨rfl, rfl, definition?_of_build hbuild⟩

/-- In all states of a history there is one definition for each type that has any, and no more were
built; it stays and is what is found and given from then on; and building any class comes to an
outcome, which if it is a definition is kept. -/
theorem one_definition_per_type {settings : Settings} {w : World}
    (hw : Session.Visits catalog (World.start settings) w) :
    catalog.OneEach w.exposer ∧
      (∀ c d u, w.exposer.definition? (catalog.identity c) = some d →
        Session.Visits catalog w u →
        u.exposer.definition? (catalog.identity c) = some d ∧
          catalog.definitionOf c u = some (.ok d, u)) ∧
      ∀ c, ∃ r u, catalog.definitionOf c w = some (r, u) ∧ Session.Visits catalog w u ∧
        ∀ d, r = .ok d → u.exposer.definition? (catalog.identity c) = some d := by
  refine ⟨?_, fun c d u hd hu => ?_, fun c => ?_⟩
  · exact hw.invariant (P := fun w => catalog.OneEach w.exposer) .of_move .of_adjusts
      (.init settings)
  · have hkept := definition?_of_visits hu hd
    exact ⟨hkept, build_of_kept hkept⟩
  · obtain ⟨r, u, hrun⟩ := catalog.answers_definitionOf c w
    refine ⟨r, u, hrun, Session.Visits.start.moves (catalog.moves_definitionOf c hrun).moves, ?_⟩
    rintro d rfl
    exact definition?_of_build hrun

/-- Trees and nodes mention each other: a tree mentions nodes by a stub, a declaration of the type
of nodes that has a label only. -/
def forest : Catalog where
  decls :=
    [{ (default : ClassDecl) with
        identity := ⟨1⟩, name := "Node",
        methods := [⟨"Label", [], .string, some (.function none), none⟩] },
      { (default : ClassDecl) with
        identity := ⟨2⟩, name := "Tree",
        methods := [⟨"Root", [], .object ⟨0⟩, some (.function none), none⟩] },
      { (default : ClassDecl) with
        identity := ⟨1⟩, name := "Node",
        methods := [⟨"Tree", [], .array (.object ⟨1⟩), some (.function none), none⟩] }]
  restsOn := by decide

/-- Building nodes builds trees on the way, and for the stub gives the definition of nodes. -/
theorem forest_one_definition_per_type :
    ∃ w d, Session.Visits forest (World.start {}) w ∧
      Keyed.keys w.exposer.definitions = [⟨2⟩, ⟨1⟩] ∧ forest.OneEach w.exposer ∧
      d.declaration = ⟨2⟩ ∧ forest.definitionOf ⟨0⟩ w = some (.ok d, w) := by
  -- While nodes are under way the stub is passed over, so nodes get the later place.
  have hrun : Session.report forest 0 none (.definition ⟨2⟩ none)
      (World.start {}) = some _ := rfl
  have hvisits := Session.Visits.step .start hrun
  obtain ⟨heach, hstays, -⟩ := one_definition_per_type hvisits
  exact ⟨_, _, hvisits, rfl, heach, rfl, (hstays ⟨0⟩ _ _ rfl .start).2⟩

end Catalog

end ScriptBoundary
