import ScriptBoundary.Proofs.Definitions
import ScriptBoundary.Proofs.Receivers

/-!
# Where definitions come from

A definition that is kept was made in one state of the history, for a type that had none, from the
members that the type exposed then (`Catalog.MadeIn`). Whatever was registered since does not count,
so what a definition shows is told by the state in which it was made.
-/

namespace ScriptBoundary

open Run

namespace Catalog

variable (catalog : Catalog)

/-- A definition is made in a state, for a type that has none there, from the members that the type
exposes there. -/
structure MadeIn (before : World) (d : Definition) (members : List ExposedMember) : Prop where
  absent : before.exposer.definition? (catalog.identity d.declaration) = none
  resolved : catalog.exposedIn before d.declaration = .ok members
  planned : ∃ mentioned,
    catalog.plans d.declaration members = .ok (d.members, d.constructors, mentioned)
  assembled : d = catalog.assemble d.declaration before.exposer.settings d.members d.constructors
    before

/-- The state once a definition is made and kept. -/
def making (before : World) (d : Definition) : World :=
  before.completed (catalog.identity d.declaration) d

/-- A definition that building a class gave, from one state to another, was made in the history
before: in a state of it, for the type of the class and from the members that it exposed there. -/
structure Origin (start u w : World) (c : ClassRef) (d : Definition) (before : World)
    (members : List ExposedMember) : Prop where
  visited : Session.Visits catalog start before
  made : catalog.MadeIn before d members
  since : Session.Visits catalog (catalog.making before d) w
  type : catalog.sameType d.declaration c = true
  /-- If the type had no definition, then it was made now, from the members of the class. -/
  first : u.exposer.definition? (catalog.identity c) = none →
    d.declaration = c ∧ catalog.exposedIn u c = .ok members ∧ w = catalog.making before d

/-- A history goes through the making of every definition that is kept at its end. -/
def Traced (start u : World) : Prop :=
  ∀ t d, u.exposer.definition? t = some d → catalog.identity d.declaration = t ∧
    ∃ before members, Session.Visits catalog start before ∧ catalog.MadeIn before d members ∧
      Session.Visits catalog (catalog.making before d) u

variable {catalog} {start w u v : World}

/-- The making of a definition is a move. -/
theorem MadeIn.move {before : World} {d : Definition} {members : List ExposedMember}
    (h : catalog.MadeIn before d members) : catalog.Move before (catalog.making before d) := by
  obtain ⟨mentioned, hplanned⟩ := h.planned
  have hmove := Move.build h.absent h.resolved hplanned
  rwa [← h.assembled] at hmove

/-- Building a class whose type has no definition makes one from the members that it exposes. -/
theorem exists_madeIn_of_build {n : Nat} {underWay : List TypeId} {c : ClassRef} {d : Definition}
    (habsent : u.exposer.definition? (catalog.identity c) = none)
    (h : catalog.build n underWay c u = some (.ok d, w)) :
    d.declaration = c ∧ ∃ before members, catalog.exposedIn u c = .ok members ∧
      catalog.Moves u before ∧ catalog.MadeIn before d members ∧
      w = catalog.making before d := by
  have hkept := definition?_of_build h
  cases n with
  | zero => cases h
  | succ n =>
    rcases build_cases h with ⟨d, hd, -, -⟩ |
      ⟨-, ⟨e, he, -⟩ | ⟨members, plans, constructors, mentioned, hm, hp, hrest⟩⟩
    · rw [habsent] at hd
      cases hd
    · cases he
    -- The classes mentioned are built with this one under way, so its type still has none.
    obtain ⟨_, before, hnested, hcomplete⟩ := bind_ok_cases hrest
    have hbefore := catalog.within_prebuild (catalog.movesBut_build n (catalog.identity c :: underWay))
      _ _ hnested
    have habsent' := (hbefore.2 _ List.mem_cons_self).trans habsent
    have hlater := World.Later.of_moves hbefore.1.moves
    let made := catalog.assemble c u.exposer.settings plans constructors before
    obtain ⟨_, hdone⟩ := catalog.complete_apply c u.exposer.settings plans constructors before
    rw [hdone] at hcomplete
    cases hcomplete
    obtain rfl : made = d := by
      have hmade : (before.exposer.keep (catalog.identity c) made).definition?
          (catalog.identity c) = some made := Exposer.definition?_keep_of_absent habsent' made
      exact Option.some.inj (hmade.symm.trans hkept)
    refine ⟨rfl, before, members, hm, hbefore.1.moves, ⟨habsent', ?_, ⟨mentioned, hp⟩, ?_⟩, rfl⟩
    · show catalog.exposedIn before c = _
      rw [exposedIn, hlater.settings, hlater.registrations]
      exact hm
    · rw [hlater.settings]
      rfl

namespace Traced

/-- What leaves the definitions leaves their history. -/
theorem of_definitions (hu : catalog.Traced start u)
    (hdefinitions : v.exposer.definitions = u.exposer.definitions)
    (hvisits : ∀ {built}, Session.Visits catalog built u → Session.Visits catalog built v) :
    catalog.Traced start v := by
  intro t d hd
  rw [Exposer.definition?, hdefinitions] at hd
  obtain ⟨htype, before, members, hbefore, hmade, hbuilt⟩ := hu t d hd
  exact ⟨htype, before, members, hbefore, hmade, hvisits hbuilt⟩

/-- A move makes one definition at most. -/
theorem move (hu : catalog.Traced start u) (hvisits : Session.Visits catalog start u)
    (h : catalog.Move u v) : catalog.Traced start v := by
  cases hmove : h with
  | @build c members plans constructors mentioned absent resolved planned =>
    -- The definition of this type is the one that is made here; those of other types were there.
    intro t d hd
    by_cases ht : t = catalog.identity c
    · subst ht
      obtain rfl := Option.some.inj
        ((Exposer.definition?_keep_of_absent absent _).symm.trans hd)
      exact ⟨rfl, u, members, hvisits, ⟨absent, resolved, ⟨mentioned, planned⟩, rfl⟩, .start⟩
    · rw [World.completed, Exposer.definition?_keep_of_ne ht] at hd
      obtain ⟨htype, before, members, hbefore, hmade, hbuilt⟩ := hu t d hd
      exact ⟨htype, before, members, hbefore, hmade, hbuilt.move h⟩
  | _ => exact hu.of_definitions rfl fun hbuilt => hbuilt.move h

theorem moves (hu : catalog.Traced start u) (hvisits : Session.Visits catalog start u)
    (h : catalog.Moves u v) : catalog.Traced start v := by
  induction h with
  | refl => exact hu
  | tail hbefore hmove ih => exact ih.move (hvisits.moves hbefore) hmove

end Traced

/-- Every definition that a session keeps was made in it. -/
theorem traced_of_visits {settings : Settings}
    (h : Session.Visits catalog (World.start settings) u) :
    catalog.Traced (World.start settings) u := by
  induction h with
  | start =>
    intro t d hd
    cases hd
  | @step u _ _ _ report before done ih =>
    rcases Session.moves_or_adjusts_report done with hmoves | hadjusts
    · have hopened : catalog.Traced (World.start settings) { u with journal := [] } :=
        ih.of_definitions rfl .opening
      exact hopened.moves (.opening before) hmoves
    · obtain ⟨_, _, _, _, hworld⟩ := hadjusts
      refine ih.of_definitions ?_ fun hbuilt => .step hbuilt done
      rw [hworld]
  | opening _ ih => exact ih.of_definitions rfl .opening
  | move before hmove ih => exact ih.move before hmove

/-- The definition that building a class gives in a session was made in it. -/
theorem exists_origin {settings : Settings} {c : ClassRef} {d : Definition}
    (hu : Session.Visits catalog (World.start settings) u)
    (hbuild : catalog.definitionOf c u = some (.ok d, w)) :
    ∃ before members, catalog.Origin (World.start settings) u w c d before members := by
  cases hd : u.exposer.definition? (catalog.identity c) with
  | none =>
    obtain ⟨hdeclaration, before, members, hm, hbefore, hmade, hworld⟩ :=
      exists_madeIn_of_build hd hbuild
    refine ⟨before, members, hu.moves hbefore, hmade, ?_, ?_, fun _ => ⟨hdeclaration, hm, hworld⟩⟩
    · rw [hworld]
      exact .start
    · exact beq_iff_eq.2 (congrArg catalog.identity hdeclaration)
  | some old =>
    -- What was kept is given again, so its making lies further back.
    have hw := hu.moves (catalog.moves_definitionOf c hbuild).moves
    obtain ⟨htype, before, members, hbefore, hmade, hmaking⟩ :=
      traced_of_visits hw _ _ (definition?_of_build hbuild)
    refine ⟨before, members, hbefore, hmade, hmaking, beq_iff_eq.2 htype, fun hnone => ?_⟩
    rw [hd] at hnone
    cases hnone

end Catalog

end ScriptBoundary
