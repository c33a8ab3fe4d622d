import ScriptBoundary.Proofs.Sessions

/-!
# Histories of a session

A session passes through more states than those between its steps: in the middle of a step code runs
that may come back to the exposer. `Session.Visits` says which states a session passes through, and
one state comes later than another where the session passes through it from there. What moves keep,
and what does not depend on the variables, the journal, the registrations and the life of the
exposer, holds in all states of a history once it holds in the first (`Visits.invariant`).
-/

namespace ScriptBoundary

open Run

/-- The second state differs from the first in the journal, the variables, the registrations and the
life of the exposer at most. -/
def World.Adjusts (w w' : World) : Prop :=
  ∃ journal named registrations alive,
    w' = { w with journal, named, exposer := { w.exposer with registrations, alive } }

instance : IsPreorder World World.Adjusts where
  refl w := ⟨w.journal, w.named, w.exposer.registrations, w.exposer.alive, rfl⟩
  trans := by
    rintro w _ _ ⟨_, _, _, _, rfl⟩ ⟨journal, named, registrations, alive, rfl⟩
    exact ⟨journal, named, registrations, alive, rfl⟩

namespace World.Adjusts

theorem clear (w : World) : w.Adjusts { w with journal := [] } :=
  ⟨[], w.named, w.exposer.registrations, w.exposer.alive, rfl⟩

theorem rename (w : World) (named : List (String × Variable)) : w.Adjusts { w with named } :=
  ⟨w.journal, named, w.exposer.registrations, w.exposer.alive, rfl⟩

theorem dispose (w : World) : w.Adjusts { w with exposer := { w.exposer with alive := false } } :=
  ⟨w.journal, w.named, w.exposer.registrations, false, rfl⟩

theorem register (w : World) (type : TypeId) (descriptors : List Descriptor) :
    w.Adjusts { w with exposer := (w.exposer.register type descriptors).1 } := by
  unfold Exposer.register
  split
  · exact Std.Refl.refl w
  · exact ⟨w.journal, w.named, _, w.exposer.alive, rfl⟩

end World.Adjusts

/-- A step that registers members or ends the exposer adjusts the state. -/
theorem Step.adjusts_perform {catalog : Catalog} {r : Reentry} {step : Step}
    (hstep : ¬ step.IsOrdinary) : (step.perform catalog r).Within World.Adjusts := by
  cases step with
  | register c descriptors =>
    have hregister : (catalog.registerDescriptors c descriptors : Run HostError Bool).Within
        World.Adjusts := by
      intro w r w' h
      cases h
      exact .register w _ descriptors
    exact .bind (.mapError Catalog.within_requireAlive _) fun _ => .bind hregister fun _ => .pure _
  | dispose => exact .bind (.change .dispose) fun _ => .pure _
  | _ => exact absurd trivial hstep

namespace Session

/-- The states that a session passes through: where its steps end, where they begin, and those that
its moves come to in between. -/
inductive Visits (catalog : Catalog) (start : World) : World → Prop
  | start : Visits catalog start start
  | step {w : World} {allowance : Nat} {name : Option String} {step : Step} {report : Report}
      (before : Visits catalog start w)
      (done : Session.report catalog allowance name step w = some report) :
      Visits catalog start report.world
  | opening {w : World} (before : Visits catalog start w) :
      Visits catalog start { w with journal := [] }
  | move {w w' : World} (before : Visits catalog start w) (move : catalog.Move w w') :
      Visits catalog start w'

variable {catalog : Catalog} {w u v : World}

/-- A step moves, or adjusts, from the state with an empty journal. -/
theorem moves_or_adjusts_report {allowance : Nat} {name : Option String} {step : Step}
    {rep : Report} (h : report catalog allowance name step w = some rep) :
    catalog.Moves { w with journal := [] } rep.world ∨
      World.Adjusts { w with journal := [] } rep.world := by
  by_cases hstep : step.IsOrdinary
  · exact .inl (moves_report hstep h)
  · have hperform : (perform catalog allowance name step).Within World.Adjusts := by
      refine .bind (Step.adjusts_perform hstep) fun answer => ?_
      split
      · exact .pure _
      · exact .bind (.change fun w => .rename w _) fun _ => .pure _
    exact .inr (hperform (report_cases h).1)

namespace Visits

theorem moves (hw : Visits catalog w u) (hu : catalog.Moves u v) : Visits catalog w v := by
  induction hu with
  | refl => exact hw
  | tail _ hmove ih => exact .move ih hmove

/-- What moves and adjustments keep holds in all states of a history, once it holds in the first. -/
theorem invariant {P : World → Prop} (hmove : ∀ {w w'}, catalog.Move w w' → P w → P w')
    (hadjust : ∀ {w w'}, World.Adjusts w w' → P w → P w') (h : Visits catalog w u) (hw : P w) :
    P u := by
  have hmoves : ∀ {w w'}, catalog.Moves w w' → P w → P w' := by
    intro w w' hmoves hw
    induction hmoves with
    | refl => exact hw
    | tail _ h ih => exact hmove h ih
  induction h with
  | start => exact hw
  -- A step clears the journal, then moves or adjusts.
  | @step v _ _ _ _ _ done ih =>
    have hopened := hadjust (.clear v) ih
    rcases moves_or_adjusts_report done with h | h
    · exact hmoves h hopened
    · exact hadjust h hopened
  | @opening v _ ih => exact hadjust (.clear v) ih
  | move _ h ih => exact hmove h ih

end Visits

end Session

end ScriptBoundary
