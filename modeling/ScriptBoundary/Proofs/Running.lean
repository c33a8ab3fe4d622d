import ScriptBoundary.Proofs.Conversions
import ScriptBoundary.Proofs.Moves

/-!
# Runs are made of moves

Building, conversions to scripts, properties and host code change the state by moves only, whatever
comes of them, and the proxies that they make are made by the definition of the own class of the
instance (`Catalog.OwnMove`). Each function is shown to do so from the functions that it uses; the
calls that it leaves to the next level are assumed to (`Reentry.Moves`).
-/

namespace ScriptBoundary

open Run

/-- The next level of calls changes the state by moves only. -/
structure Reentry.Moves (catalog : Catalog) (r : Reentry) : Prop where
  callFunction : ∀ f this args, (r.callFunction f this args).Within catalog.OwnMoves
  invoke : ∀ c args, (r.invoke c args).Within catalog.OwnMoves
  toNative : ∀ type value, (r.toNative type value).Within catalog.OwnMoves

namespace Catalog

variable (catalog : Catalog)

/-! ## Heaps -/

variable {catalog} in
theorem moves_onHeap {ε α : Type} {f : Heap → Heap × α}
    (h : ∀ heap : Heap, heap.Alters (f heap).1) :
    (Run.onHeap f : Run ε α).Within catalog.OwnMoves :=
  .onHeap fun w => ownMoves_of_alters (h w.heap)

theorem moves_newArray {ε : Type} (items : List ScriptValue) :
    (Run.onHeap (·.newArray items) : Run ε ArrayId).Within catalog.OwnMoves :=
  moves_onHeap fun _ => .newArray items

theorem moves_newPlain {ε : Type} :
    (Run.onHeap (·.newObject .plain) : Run ε ObjectId).Within catalog.OwnMoves :=
  moves_onHeap fun _ => .newObject rfl rfl

theorem moves_define {ε : Type} (o : ObjectId) (key : String) (property : Property) :
    (Run.onHeap fun h => (h.define o key property, ()) : Run ε Unit).Within catalog.OwnMoves :=
  moves_onHeap fun _ => .define o key property

theorem moves_faceOf {ε : Type} (c : Callable) :
    (faceOf c : Run ε FunctionId).Within catalog.OwnMoves :=
  moves_onHeap fun _ => .newFunction fun _ h => by cases h

/-! ## Definitions -/

/-- Moves that leave the definitions of some types. -/
def MovesBut (types : List TypeId) (w w' : World) : Prop :=
  catalog.OwnMoves w w' ∧ ∀ t ∈ types, w'.exposer.definition? t = w.exposer.definition? t

instance (types : List TypeId) : IsPreorder World (catalog.MovesBut types) where
  refl _ := ⟨.refl, fun _ _ => rfl⟩
  trans _ _ _ h₁ h₂ := ⟨h₁.1.trans h₂.1, fun t ht => (h₂.2 t ht).trans (h₁.2 t ht)⟩

/-- Building moves, and leaves the types that are under way. -/
theorem movesBut_build (n : Nat) (underWay : List TypeId) (c : ClassRef)
    (hc : catalog.identity c ∉ underWay) :
    (catalog.build n underWay c).Within (catalog.MovesBut underWay) := by
  induction n generalizing underWay c with
  | zero => exact .exhausted
  | succ n ih =>
    intro w r w' h
    rcases build_cases h with ⟨d, -, -, rfl⟩ |
      ⟨hnone, ⟨e, -, rfl⟩ | ⟨members, plans, constructors, mentioned, hm, hp, hrest⟩⟩
    · exact Std.Refl.refl w'
    · exact Std.Refl.refl w'
    · -- What the class mentions is built with the class under way, so its type still has none.
      let types := catalog.identity c :: underWay
      have hnested : (catalog.prebuild n types w.exposer.settings mentioned).Within
          (catalog.MovesBut types) := catalog.within_prebuild (ih types) _ _
      have htail : ∀ {u}, catalog.MovesBut types w u → catalog.MovesBut underWay w u :=
        fun hu => ⟨hu.1, fun t ht => hu.2 t (List.mem_cons_of_mem _ ht)⟩
      rcases bind_cases hrest with ⟨e, herror, -⟩ | ⟨_, u, hbefore, hcomplete⟩
      · exact htail (hnested herror)
      · have hu := hnested hbefore
        have hlater := World.Later.of_moves hu.1.moves
        obtain ⟨d, hd⟩ := catalog.complete_apply c w.exposer.settings plans constructors u
        rw [hd] at hcomplete
        cases hcomplete
        have habsent : u.exposer.definition? (catalog.identity c) = none :=
          (hu.2 _ List.mem_cons_self).trans hnone
        -- The members were resolved before, by registrations that are the same now.
        have hresolved : catalog.exposedIn u c = .ok members := by
          rw [exposedIn, hlater.settings, hlater.registrations]
          exact hm
        have hmove := Move.build habsent hresolved hp
        rw [hlater.settings] at hmove
        have hown := OwnMove.quiet hmove (.newPrototype _ _) rfl
        refine IsTrans.trans _ _ _ (htail hu) ⟨.single hown, fun t ht => ?_⟩
        refine Exposer.definition?_keep_of_ne ?_ _ _
        rintro rfl
        exact hc ht

/-- Building moves. -/
theorem moves_definitionOf (c : ClassRef) : (catalog.definitionOf c).Within catalog.OwnMoves :=
  fun _ _ _ h => (catalog.movesBut_build _ [] c List.not_mem_nil h).1

variable {catalog} in
/-- What building gives is kept for the type. -/
theorem definition?_of_build {n : Nat} {underWay : List TypeId} {c : ClassRef} {d : Definition}
    {w w' : World} (h : catalog.build n underWay c w = some (.ok d, w')) :
    w'.exposer.definition? (catalog.identity c) = some d := by
  cases n with
  | zero => cases h
  | succ n =>
    rcases build_cases h with ⟨d, hd, hr, rfl⟩ |
      ⟨-, ⟨e, hr, -⟩ | ⟨members, plans, constructors, mentioned, -, -, hrest⟩⟩
    · cases hr
      exact hd
    · cases hr
    · obtain ⟨_, u, -, hcomplete⟩ := bind_ok_cases hrest
      -- The answer is read off the definitions once the new one is kept.
      let made := catalog.assemble c w.exposer.settings plans constructors u
      have hkept := u.exposer.isSome_definition?_keep_self (catalog.identity c) made
      obtain ⟨e, he⟩ := Option.isSome_iff_exists.1 hkept
      have hgiven : catalog.complete c w.exposer.settings plans constructors u =
          some (.ok (((u.exposer.keep (catalog.identity c) made).definition?
            (catalog.identity c)).getD made), u.completed (catalog.identity c) made) := rfl
      rw [hgiven, he] at hcomplete
      cases hcomplete
      exact he

/-- Wrapping makes a proxy by the definition that is then kept for the class of the instance. -/
theorem moves_wrapInstance (target : Instance) :
    (catalog.wrapInstance target).Within catalog.OwnMoves := by
  intro w r w' h
  rcases bind_cases h with ⟨e, hbuild, -⟩ | ⟨d, u, hbuild, hwrap⟩
  · exact catalog.moves_definitionOf _ hbuild
  · cases hwrap
    exact (catalog.moves_definitionOf _ hbuild).tail (.proxy (definition?_of_build hbuild))

/-! ## To scripts -/

mutual

theorem moves_jsonToScript : (tree : Json) → tree.toScript.Within catalog.OwnMoves
  | .null | .bool _ | .number _ | .string _ => .pure _
  | .array items => .bind (moves_itemsToScript items) fun ss =>
      .bind (catalog.moves_newArray ss) fun _ => .pure _
  | .object fields => .bind catalog.moves_newPlain fun o =>
      .bind (moves_fieldsToScript o fields) fun _ => .pure _

theorem moves_itemsToScript : (items : List Json) → (itemsToScript items).Within catalog.OwnMoves
  | [] => .pure _
  | item :: rest => .bind (moves_jsonToScript item) fun _ =>
      .bind (moves_itemsToScript rest) fun _ => .pure _

theorem moves_fieldsToScript (o : ObjectId) :
    (fields : List (String × Json)) → (fieldsToScript o fields).Within catalog.OwnMoves
  | [] => .pure _
  | (key, value) :: rest => .bind (moves_jsonToScript value) fun s =>
      .bind (catalog.moves_define o key (.data s)) fun _ => moves_fieldsToScript o rest

end

theorem moves_jsonTextToScript (text : String) :
    (jsonTextToScript text).Within catalog.OwnMoves := by
  unfold jsonTextToScript
  split
  · exact catalog.moves_jsonToScript _
  · exact .throw _

theorem moves_textsToScript (texts : List (Option String)) :
    (textsToScript texts).Within catalog.OwnMoves := by
  unfold textsToScript
  split
  · exact .pure _
  · exact .bind (catalog.moves_newArray _) fun _ => .pure _

mutual

theorem moves_toScript : (v : NativeValue) → (catalog.toScript v).Within catalog.OwnMoves
  | .null | .bool _ | .int _ _ | .float _ _ | .char _ | .datetime _ | .string _ | .script _ =>
    .pure _
  | .enumeration _ _ => .ofExcept _
  | .array items | .sequence items => .bind (moves_allToScript items) fun ss =>
      .bind (catalog.moves_newArray ss) fun _ => .pure _
  | .dictionary entries => .bind catalog.moves_newPlain fun o =>
      .bind (moves_entriesToScript o entries) fun _ => .pure _
  | .multimap _ => .bind catalog.moves_newPlain fun o =>
      .bind (.forM fun entry _ => .bind (catalog.moves_textsToScript entry.2) fun s =>
        catalog.moves_define o entry.1 (.data s)) fun _ => .pure _
  | .callable c => .bind (catalog.moves_faceOf c) fun _ => .pure _
  | .json text => catalog.moves_jsonTextToScript text
  | .object target => catalog.moves_wrapInstance target

theorem moves_allToScript :
    (items : List NativeValue) → (catalog.allToScript items).Within catalog.OwnMoves
  | [] => .pure _
  | item :: rest => .bind (moves_toScript item) fun _ =>
      .bind (moves_allToScript rest) fun _ => .pure _

theorem moves_entriesToScript (o : ObjectId) :
    (entries : List (String × NativeValue)) →
      (catalog.entriesToScript o entries).Within catalog.OwnMoves
  | [] => .pure _
  | (key, value) :: rest => .bind (moves_toScript value) fun s =>
      .bind (catalog.moves_define o key (.data s)) fun _ => moves_entriesToScript o rest

end

theorem moves_toScriptAs (type : NativeType) (v : NativeValue) :
    (catalog.toScriptAs type v).Within catalog.OwnMoves :=
  .bind (.ofExcept _) fun v => catalog.moves_toScript v

/-! ## Callbacks -/

theorem moves_bind {ε : Type} (f : FunctionId) (shape : Shape) :
    (catalog.bind f shape : Run ε Callable).Within catalog.OwnMoves := by
  intro w r w' h
  rw [Catalog.bind, bind_ok (read_apply _ w)] at h
  cases hfound : w.exposer.bindings.find? fun b =>
      b.shape.same catalog.identity shape && b.function == f with
  | some b =>
    rw [hfound] at h
    cases h
    exact .refl
  | none =>
    rw [hfound] at h
    cases h
    exact (Move.bind hfound).own rfl rfl

theorem moves_callableFor {ε : Type} (f : FunctionId) (shape : Shape) :
    (catalog.callableFor f shape : Run ε Callable).Within catalog.OwnMoves := by
  refine .bind (.ofHeap _) fun function => ?_
  split
  · split
    · exact .pure _
    · exact catalog.moves_bind f shape
  · exact catalog.moves_bind f shape

theorem moves_newCallable {ε : Type} (shape : Shape) (body : CallableBody) :
    (Run.newCallable shape body : Run ε Callable).Within catalog.OwnMoves := by
  intro w r w' h
  cases h
  exact (Move.newCallable body).own rfl rfl

theorem moves_newInstance {ε : Type} (c : ClassRef) :
    (Run.newInstance c : Run ε Instance).Within catalog.OwnMoves := by
  intro w r w' h
  cases h
  exact Move.newInstance.own rfl rfl

theorem moves_record {ε : Type} {call : CallRecord} (h : call.NoMember) :
    (Run.record call : Run ε Unit).Within catalog.OwnMoves :=
  .change fun _ => (Move.otherCall h).own rfl rfl

/-! ## Properties -/

section Reentry

variable {catalog} {r : Reentry} (hr : r.Moves catalog)

include hr

theorem moves_get (o : ObjectId) (key : String) : (r.get o key).Within catalog.OwnMoves := by
  refine .bind (.ofHeap _) fun property => ?_
  split
  · exact .pure _
  · exact hr.callFunction _ _ _
  · exact .pure _
  · exact .pure _

theorem moves_set (o : ObjectId) (key : String) (value : ScriptValue) :
    (r.set o key value).Within catalog.OwnMoves := by
  refine .bind (.ofHeap _) fun property => ?_
  split
  · exact .bind (hr.callFunction _ _ _) fun _ => .pure _
  · exact .bind (.ofHeap _) fun _ => .throw _
  · exact catalog.moves_define o key (.data value)
  · exact catalog.moves_define o key (.data value)

theorem moves_entries (o : ObjectId) : (r.entries o).Within catalog.OwnMoves :=
  .bind (.ofHeap _) fun _ => .mapM fun key _ => .bind (moves_get hr o key) fun _ => .pure _

theorem moves_callMethod (o : ObjectId) (key : String) (args : List ScriptValue) :
    (r.callMethod o key args).Within catalog.OwnMoves := by
  refine .bind (moves_get hr o key) fun value => ?_
  split
  · exact hr.callFunction _ _ _
  · exact .bind (.ofHeap _) fun _ => .throw _

theorem moves_global? {ε : Type} (name : String) :
    (r.global? name : Run ε (Option ScriptValue)).Within catalog.OwnMoves := by
  refine .bind (.read _) fun globals => .bind (.ofHeap _) fun property => ?_
  split
  · exact .pure _
  · refine .bind (.attempt (moves_get hr globals name)) fun outcome => ?_
    split
    · exact .pure _
    · exact .pure _

/-! ## Host code -/

theorem moves_scriptCode (code : ScriptCode) : (code.run r).Within catalog.OwnMoves := by
  -- By induction on the tree of requests; what a call does is the next level's concern.
  induction code with
  | done result => exact .ofExcept result
  | newArray items next ih => exact .bind (catalog.moves_newArray items) ih
  | newObject next ih => exact .bind catalog.moves_newPlain ih
  | newFunction name body next _ ih =>
    exact .bind (moves_onHeap fun _ => .newFunction fun _ h => by cases h) ih
  | readVariable name next ih => exact .bind (.read _) ih
  | readGlobal name next ih => exact .bind (moves_global? hr name) fun _ => ih _
  | define o key property next ih =>
    exact .bind (catalog.moves_define o key property) fun _ => ih
  | get o key next ih => exact .bind (.attempt (moves_get hr o key)) ih
  | set o key value next ih => exact .bind (.attempt (moves_set hr o key value)) ih
  | callMethod o key args next ih => exact .bind (.attempt (moves_callMethod hr o key args)) ih
  | call f this args next ih => exact .bind (.attempt (hr.callFunction f this args)) ih

theorem moves_nativeCode (code : NativeCode) : (code.run r).Within catalog.OwnMoves := by
  induction code with
  | done result => exact .ofExcept result
  | script code next ih => exact .bind (.attempt (moves_scriptCode hr code)) ih
  | readVariable name next ih => exact .bind (.read _) ih
  | newCallable shape body next _ ih => exact .bind (catalog.moves_newCallable shape _) ih
  | newInstance c next ih => exact .bind (catalog.moves_newInstance c) ih
  | field target name next ih => exact .bind (.read _) ih
  | setField target name value next ih =>
    exact .bind (.change fun w => (Move.updateInstance target _).own rfl rfl) fun _ => ih
  | handlers target next ih => exact .bind (.read _) ih
  | setHandlers target kept next ih =>
    exact .bind (.change fun w => (Move.updateInstance target _).own rfl rfl) fun _ => ih
  | invoke c args next ih => exact .bind (.attempt (hr.invoke c args)) ih

theorem moves_runConstructor (c made : ClassRef) (code : MemberCode) (args : List NativeValue) :
    (r.runConstructor c made code args).Within catalog.OwnMoves := by
  refine .bind (catalog.moves_record trivial) fun _ => ?_
  refine .bind (catalog.moves_newInstance made) fun target => ?_
  exact .bind (moves_nativeCode hr _) fun _ => .pure _

end Reentry

end Catalog

end ScriptBoundary
