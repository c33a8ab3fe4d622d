import ScriptBoundary.Proofs.Histories

/-!
# What lasts

Two things hold of the heap throughout a history. A function that was made stays what it is and a
proxy stays one of its instance (`Visits.later`), and no object has a name twice (`Visits.tidy`).
-/

namespace ScriptBoundary

namespace Heap

/-- No object has a name twice. -/
def Tidy (h : Heap) : Prop := ∀ o : ObjectId, (h.ownKeys o).Nodup

namespace Tidy

variable {h : Heap}

theorem empty : Tidy {} := by
  intro o
  rw [ownKeys, object_of_size_le (Nat.zero_le _)]
  exact List.nodup_nil

/-- A heap is as tidy as its objects. -/
theorem of_objects {h' : Heap} (ht : h.Tidy) (hobjects : h'.objects = h.objects) : h'.Tidy := by
  intro o
  rw [ownKeys, object, hobjects]
  exact ht o

/-- An object whose properties have distinct names may be added. -/
theorem newObject (ht : h.Tidy) {o : ScriptObject} (ho : (Keyed.keys o.properties).Nodup) :
    (h.newObject o).1.Tidy := by
  intro p
  rcases h.object_newObject_cases p o with hsame | ⟨-, hnew⟩
  · rw [ownKeys, hsame]
    exact ht p
  · rw [ownKeys, hnew]
    exact ho

theorem define (ht : h.Tidy) (o : ObjectId) (key : String) (property : Property) :
    (h.define o key property).Tidy := by
  intro p
  by_cases hpo : p = o
  · subst hpo
    by_cases hlt : p.index < h.objects.size
    · rw [ownKeys, h.object_define_self hlt]
      exact Keyed.nodup_keys_put (ht p) key property
    · have hsame : (h.define p key property).object p = h.object p := by
        simp [Heap.define, object, Array.getD_eq_getD_getElem?, hlt]
      rw [ownKeys, hsame]
      exact ht p
  · rw [ownKeys, h.object_define_of_ne hpo]
    exact ht p

theorem addMember (ht : h.Tidy) (prototype : ObjectId) (plan : MemberPlan) :
    (Heap.addMember prototype h plan).Tidy := by
  have hnew : (h.newFunction ⟨plan.name, .member plan⟩).1.Tidy := ht.of_objects rfl
  obtain ⟨property, hadded⟩ := h.exists_addMember_eq prototype plan
  rw [hadded]
  exact hnew.define _ _ _

theorem newPrototype (ht : h.Tidy) (plans : List MemberPlan) : (h.newPrototype plans).1.Tidy := by
  have hfold : ∀ (plans : List MemberPlan) {h' : Heap} (o : ObjectId), h'.Tidy →
      (plans.foldl (Heap.addMember o) h').Tidy := by
    intro plans
    induction plans with
    | nil => exact fun _ => id
    | cons plan plans ih => exact fun o ht' => ih o (ht'.addMember o plan)
  exact hfold plans _ (ht.newObject List.nodup_nil)

theorem of_alters {h' : Heap} (ht : h.Tidy) (ha : h.Alters h') : h'.Tidy := by
  cases ha with
  | newObject _ bare =>
    refine ht.newObject ?_
    rw [bare]
    exact List.nodup_nil
  | define o key property => exact ht.define o key property
  | _ => exact ht.of_objects rfl

theorem of_move {catalog : Catalog} {w w' : World} (ht : w.heap.Tidy) (h : catalog.Move w w') :
    w'.heap.Tidy := by
  cases h with
  | heap alters => exact ht.of_alters alters
  | proxy => exact ht.newObject List.nodup_nil
  | build => exact ht.newPrototype _
  | _ => exact ht

end Tidy

end Heap

namespace Session.Visits

variable {catalog : Catalog} {w u : World}

/-- No state of a session has an object with a name twice. -/
theorem tidy {settings : Settings} (h : Visits catalog (World.start settings) u) : u.heap.Tidy := by
  refine h.invariant (P := fun u => u.heap.Tidy) (fun hmove ht => ht.of_move hmove) ?_ ?_
  · rintro w _ ⟨_, _, _, _, rfl⟩ ht
    exact ht
  · exact (Heap.Tidy.empty).newObject List.nodup_nil

/-- Functions and proxies stay what they are. -/
theorem later (h : Visits catalog w u) : w.heap.Later u.heap := by
  refine h.invariant (P := fun u => w.heap.Later u.heap) ?_ ?_ (.refl _)
  · exact fun hmove hlater => hlater.trans (World.Later.of_move hmove).heap
  · rintro u _ ⟨_, _, _, _, rfl⟩ hlater
    exact hlater

/-- A session passes through what it passes through from a state it passes through. -/
theorem trans {v : World} (hw : Visits catalog w u) (hu : Visits catalog u v) :
    Visits catalog w v := by
  induction hu with
  | start => exact hw
  | step _ done ih => exact .step ih done
  | opening _ ih => exact .opening ih
  | move _ hmove ih => exact .move ih hmove

end Session.Visits

end ScriptBoundary
