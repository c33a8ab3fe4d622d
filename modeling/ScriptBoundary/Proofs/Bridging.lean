import ScriptBoundary.Proofs.Subscriptions

/-!
# Functions that cross and come back

A script function that goes to native code for a shape and comes back as a script value is a new
function, the face of the wrapper of the first. Two adapters stand between a call of the second and
the call of the first. One converts the arguments for the fixed parameters to native and collects
those that remain in an array; the other converts the former back and spreads the latter again. What
is spread is what was collected (`Catalog.callbackArguments_collected`), so the two together are the
conversions of the fixed arguments there and back and nothing else (`Catalog.callFunction_face`).
-/

namespace ScriptBoundary

open Run

namespace Catalog

variable (catalog : Catalog)

/-- The arguments with which a call arrives on the other side: those for fixed parameters are
converted to native, one after the other, and then back; those that remain are passed on as they are
if the last parameter takes them, and dropped otherwise. -/
def arriving (r : Reentry) (params : List Param) (args : List ScriptValue) :
    Run Error (List ScriptValue) := do
  let natives ← (fixedTypes params).zipIdx.mapM fun (type, i) =>
    catalog.toNative r type (args.getD i .undefined)
  let values ← natives.mapM catalog.toScript
  return values ++ if takesRest params then args.drop (fixedTypes params).length else []

/-- The result that a call brings back: converted to native and back, or undefined where the shape
has no result. -/
def returning (r : Reentry) (type : NativeType) (result : ScriptValue) : Run Error ScriptValue :=
  if type.isVoid then return .undefined
  else do catalog.toScriptAs type (← catalog.toNative r type result)

/-- One call of a function through a shape: the arguments arrive, the function is called once and
without a receiver, and its result comes back. The arguments are converted on the level of the
caller, the function is called one level below. -/
def transparent (r below : Reentry) (f : FunctionId) (shape : Shape) (args : List ScriptValue) :
    Run Error ScriptValue := do
  let values ← catalog.arriving r shape.params args
  let result ← below.callFunction f .undefined values
  catalog.returning below shape.result result

/-! ## Arguments -/

/-- Script values that were collected are spread as they were. -/
theorem spread_collected (values : List ScriptValue) :
    catalog.spread (some (.array (values.map .script))) = .ok values := by
  induction values with
  | nil => rfl
  | cons value values ih =>
    unfold spread at ih ⊢
    dsimp only at ih ⊢
    rw [List.map_cons, List.mapM_cons, ih]
    rfl

/-- The arguments of a callback, from native values for the fixed parameters and the array of those
that remain: the former converted, the latter as they were. -/
theorem callbackArguments_collected {params : List Param} (h : RestLast params)
    {natives : List NativeValue} (hlength : natives.length = (fixedTypes params).length)
    (remaining : List ScriptValue) :
    catalog.callbackArguments params
        (natives ++ if takesRest params then [.array (remaining.map .script)] else []) = (do
      let values ← natives.mapM catalog.toScript
      return values ++ if takesRest params then remaining else []) := by
  induction params generalizing natives with
  | nil =>
    obtain rfl := List.length_eq_zero_iff.1 hlength
    rfl
  | cons p params ih =>
    rcases h.cases_cons with ⟨name, rfl, rfl⟩ | ⟨name, type, rfl, hrest, htakes⟩
    · obtain rfl := List.length_eq_zero_iff.1 hlength
      show (Run.ofConversion (catalog.spread (some (.array (remaining.map .script)))) >>= _) =
        (pure remaining : Run Error (List ScriptValue))
      rw [spread_collected]
      exact congrArg (pure : _ → Run Error _) (List.append_nil remaining)
    · obtain ⟨native, natives, rfl⟩ := List.exists_cons_of_length_eq_add_one hlength
      rw [htakes, List.mapM_cons, bind_assoc]
      show (catalog.toScript native >>= fun value =>
        catalog.callbackArguments params (natives ++ _) >>= _) = _
      rw [ih hrest (Nat.succ.inj hlength)]
      refine bind_congr fun value => ?_
      rw [bind_assoc, bind_assoc]
      rfl

variable {catalog}

/-! ## Calls -/

/-- What a call through the wrapper of a function brings back is the result of the function,
converted there and back. -/
theorem giveResult_returning (r : Reentry) (type : NativeType) (result : ScriptValue) :
    ((if type.isVoid then return .null else catalog.toNative r type result : Run Error NativeValue)
      >>= catalog.giveResult (if type.isVoid then .discarded else .checked type)) =
      catalog.returning r type result := by
  unfold returning
  cases type.isVoid <;> rfl

/-- An error of the boundary passes a crossing as it is. -/
theorem mapError_ofHost_lift {α : Type} (x : Run Error α) (name : String) :
    x.lift.mapError (Error.ofHost name) = x := by
  funext w
  show ((x w).bind _).bind _ = x w
  rcases x w with _ | ⟨_ | a, w'⟩ <;> rfl

variable {w : World} {g : FunctionId} {b : Binding}

/-- A wrapper that is given native arguments for its fixed parameters and the array of those that
remain calls its function with all of them, and its result comes back. -/
theorem invoke_collected (hb : b.Works w) (halive : w.exposer.alive = true)
    (hrest : RestLast b.wrapper.shape.params) {natives : List NativeValue}
    (hlength : natives.length = (fixedTypes b.wrapper.shape.params).length)
    (remaining : List ScriptValue) (r : Reentry) :
    ((catalog.invoke r b.wrapper (natives ++ if takesRest b.wrapper.shape.params then
        [.array (remaining.map .script)] else [])).mapError (Error.ofHost b.wrapper.shape.name) >>=
      catalog.giveResult (Adapter.ofShape b.wrapper.shape).outcome) w = (do
        let values ← natives.mapM catalog.toScript
        let result ← r.callFunction b.function .undefined
          (values ++ if takesRest b.wrapper.shape.params then remaining else [])
        catalog.returning r b.wrapper.shape.result result : Run Error ScriptValue) w := by
  have hinvoke : ∀ args, (catalog.invoke r b.wrapper args).mapError
      (Error.ofHost b.wrapper.shape.name) w =
        catalog.relay r b.function b.wrapper.shape args w := by
    intro args
    rw [← mapError_ofHost_lift (catalog.relay r b.function b.wrapper.shape args)]
    show (catalog.invoke r b.wrapper args w).bind _ = _
    rw [invoke_wrapper hb]
    rfl
  rw [bind_congr_apply (hinvoke _), relay, bind_assoc, bind_ok (requireAlive_of_alive halive),
    callbackArguments_collected catalog hrest hlength]
  simp only [bind_assoc, pure_bind]
  refine congrFun (bind_congr fun values => bind_congr fun result => ?_) w
  exact giveResult_returning r b.wrapper.shape.result result

/-- Calling the face of the wrapper of a function calls the function, with what arrives of the
arguments. -/
theorem callFunction_face {settings : Settings}
    (hw : Session.Visits catalog (World.start settings) w) (halive : w.exposer.alive = true)
    (hb : b ∈ w.exposer.bindings) (hface : (w.heap.function g).body = .face b.wrapper)
    (hrest : RestLast b.wrapper.shape.params) (n : Nat) (this : ScriptValue)
    (args : List ScriptValue) :
    catalog.callFunction (catalog.reentry (n + 1)) g this args w =
      catalog.transparent (catalog.reentry (n + 1)) (catalog.reentry n) b.function b.wrapper.shape
        args w := by
  have hcall : catalog.callFunction (catalog.reentry (n + 1)) g this args w =
      catalog.callFace (catalog.reentry (n + 1)) b.wrapper args w := by
    rw [callFunction, bind_ok (ofHeap_apply _ w), hface]
    exact bind_ok (requireAlive_of_alive halive) _
  have hintakes :
      (Adapter.ofShape b.wrapper.shape).intakes = b.wrapper.shape.params.map Param.intake :=
    rfl
  rw [hcall, callFace_eq, cross, hintakes, takeArguments_params catalog _ hrest,
    takeArguments_fixed, transparent, arriving]
  simp only [bind_assoc, pure_bind]
  refine bind_congr_ok fun natives u hnatives => ?_
  have hlength : natives.length = (fixedTypes b.wrapper.shape.params).length :=
    (length_of_mapM hnatives).trans List.length_zipIdx
  -- Converting the arguments leaves the exposer alive and the entry in the table.
  have hmoves : catalog.Moves w u := by
    rw [← takeArguments_fixed] at hnatives
    exact (moves_takeArguments (moves_reentry catalog _) _ _ hnatives).moves
  obtain ⟨pairs, hwraps⟩ := exists_wraps_of_visits hw
  obtain ⟨⟨_, hbound⟩, hstays⟩ := hwraps.bound.later (Session.Visits.start.moves hmoves)
  exact invoke_collected (hbound.works b (hstays b hb))
    ((World.Later.of_moves hmoves).alive.trans halive) hrest hlength _ _

/-- The face of a callable fails once the exposer is gone. -/
theorem callFunction_face_of_disposed {c : Callable} (hface : (w.heap.function g).body = .face c)
    (halive : w.exposer.alive = false) (r : Reentry) (this : ScriptValue)
    (args : List ScriptValue) :
    catalog.callFunction r g this args w = some (.error .disposed, w) := by
  rw [callFunction, bind_ok (ofHeap_apply _ w), hface]
  exact bind_error (requireAlive_of_disposed halive) _

/-! ## Wrapping -/

/-- Parameters that are the same take all that remain alike. -/
theorem isRest_of_same {identity : ClassRef → TypeId} {params params' : List Param}
    (h : sameParams identity params params' = true) :
    params.map Param.isRest = params'.map Param.isRest := by
  induction params generalizing params' with
  | nil =>
    cases params' with
    | nil => rfl
    | cons q params' => simp [sameParams] at h
  | cons p params ih =>
    cases params' with
    | nil => simp [sameParams] at h
    | cons q params' =>
      rw [sameParams, Bool.and_eq_true] at h
      have hhead : p.isRest = q.isRest := by
        cases p <;> cases q <;> simp_all [Param.same, Param.isRest]
      rw [List.map_cons, List.map_cons, hhead, ih h.2]

/-- A shape that is the same as one of which only the last parameter takes all that remain is
another. -/
theorem restLast_of_same {shape shape' : Shape}
    (h : shape.same catalog.identity shape' = true) (hrest : RestLast shape'.params) :
    RestLast shape.params := by
  have hparams : shape.params.map Param.isRest = shape'.params.map Param.isRest := by
    obtain ⟨name, params, result⟩ := shape
    obtain ⟨name', params', result'⟩ := shape'
    rw [Shape.same, Bool.and_eq_true, Bool.and_eq_true] at h
    exact isRest_of_same h.1.2
  have hmap : ∀ params : List Param,
      RestLast params ↔ ∀ isRest ∈ (params.map Param.isRest).dropLast, isRest = false := by
    intro params
    rw [← List.map_dropLast, List.forall_mem_map]
    rfl
  rw [hmap, hparams, ← hmap]
  exact hrest

/-- A function that is no face is wrapped for the shape itself, unless it was wrapped before for one
that is the same. -/
theorem exists_wrapper {settings : Settings} {f : FunctionId}
    (hw : Session.Visits catalog (World.start settings) w)
    (hplain : (w.heap.function f).callable? = none) (shape : Shape) :
    ∃ b w₁, (catalog.callableFor f shape : Run Error Callable) w = some (.ok b.wrapper, w₁) ∧
      b.wrapper.shape.same catalog.identity shape = true ∧ b.function = f ∧
      (b.wrapper.shape = shape ∨ b ∈ w.exposer.bindings) ∧
      ∀ u, Session.Visits catalog w₁ u → b ∈ u.exposer.bindings := by
  have hno : ∀ c, ¬ catalog.StandsFor w f shape c := by
    rintro c ⟨hface, -⟩
    rw [hplain] at hface
    cases hface
  obtain ⟨b, w₁, hrun, hpair, hlater⟩ := exists_entry hw hno
  obtain ⟨hshape, hfunction⟩ := pairClass_eq_iff.1 hpair
  obtain ⟨hb, _, hbound⟩ := hlater w₁ .start
  refine ⟨b, w₁, hrun, ?_, hfunction, ?_, fun u hu => (hlater u hu).1⟩
  · rw [(hbound.works b hb).shape]
    exact hshape
  rw [callableFor_of_not_standsFor hno] at hrun
  cases hfound : w.exposer.bindings.find? fun b =>
      b.shape.same catalog.identity shape && b.function == f with
  | some b' =>
    rw [bind_of_found hfound] at hrun
    obtain ⟨-, rfl⟩ := Prod.mk.inj (Option.some.inj hrun)
    exact .inr hb
  | none =>
    rw [bind_of_unbound hfound] at hrun
    exact .inl (congrArg Callable.shape (Except.ok.inj (Prod.mk.inj (Option.some.inj hrun)).1)).symm

/-! ## Crossing -/

/-- A script function that exists and is no face goes to native code for a shape of which only the
last parameter may take all that remain, and comes back as another function. In every later state,
calling that one with any receiver and any arguments is one transparent call of the first, as long
as the exposer lives; and both go to native code as the same callable again, which changes nothing.
The callable has the shape itself, or the same one for which the function was wrapped before, and
conversions go by the shape that the callable has. -/
theorem bridged_functions_transparent {settings : Settings}
    (hw : Session.Visits catalog (World.start settings) w) {f : FunctionId}
    (hf : f.index < w.heap.functions.size) (hplain : (w.heap.function f).callable? = none)
    {shape : Shape} (hrest : RestLast shape.params) :
    ∃ c w₁ g w₂,
      (∀ r, catalog.toNative r (.callable shape) (.function f) w =
        some (.ok (.callable c), w₁)) ∧
      catalog.toScript (.callable c) w₁ = some (.ok (.function g), w₂) ∧
      c.shape.same catalog.identity shape = true ∧
      (c.shape = shape ∨ ∃ b ∈ w.exposer.bindings, b.function = f ∧ b.wrapper = c) ∧
      ∀ u, Session.Visits catalog w₂ u →
        (u.exposer.alive = true → ∀ n this args,
          catalog.callFunction (catalog.reentry (n + 1)) g this args u =
            catalog.transparent (catalog.reentry (n + 1)) (catalog.reentry n) f c.shape args u) ∧
        (u.exposer.alive = false → ∀ r this args,
          catalog.callFunction r g this args u = some (.error .disposed, u)) ∧
        ∀ r, catalog.toNative r (.callable shape) (.function g) u = some (.ok (.callable c), u) ∧
          catalog.toNative r (.callable shape) (.function f) u = some (.ok (.callable c), u) := by
  obtain ⟨b, w₁, hrun, hsame, rfl, hold, hlater⟩ := exists_wrapper hw hplain shape
  obtain ⟨c, _, hrun', hlasts⟩ := callableFor_lasts hw hf shape
  cases hrun.symm.trans hrun'
  have hw₁ := hw.moves (catalog.moves_callableFor b.function shape hrun).moves
  -- The function that comes back is new.
  let w₂ : World :=
    { w₁ with heap := (w₁.heap.newFunction ⟨b.wrapper.shape.name, .face b.wrapper⟩).1 }
  let g : FunctionId := ⟨w₁.heap.functions.size⟩
  have hback : catalog.toScript (.callable b.wrapper) w₁ = some (.ok (.function g), w₂) := rfl
  have hsince : Session.Visits catalog w₁ w₂ :=
    Session.Visits.start.moves (catalog.moves_toScript _ hback).moves
  have hnew : (w₂.heap.function g).body = .face b.wrapper := by
    simp [w₂, g, Heap.newFunction, Heap.function, Array.getD_eq_getD_getElem?]
  have hsize : g.index < w₂.heap.functions.size := by
    simp [w₂, g, Heap.newFunction]
  refine ⟨b.wrapper, w₁, g, w₂, fun r => map_ok hrun _, hback, hsame,
    hold.imp_right fun hb => ⟨b, hb, rfl, rfl⟩, fun u hu => ?_⟩
  have hface : (u.heap.function g).body = .face b.wrapper := by
    rw [hu.later.function g hsize]
    exact hnew
  have hcallable : (u.heap.function g).callable? = some b.wrapper := by
    rw [ScriptFunction.callable?, hface]
  refine ⟨fun halive n this args => ?_, callFunction_face_of_disposed hface, fun r => ⟨?_, ?_⟩⟩
  · exact callFunction_face ((hw₁.trans hsince).trans hu) halive (hlater u (hsince.trans hu)) hface
      (restLast_of_same hsame hrest) n this args
  · exact map_ok (catalog.callableFor_of_face hcallable hsame) _
  · exact map_ok (hlasts u (hsince.trans hu)) _

/-- A stub for parcels, and parcels. -/
def parcels : Catalog where
  decls :=
    [{ (default : ClassDecl) with identity := ⟨1⟩, name := "Parcel" },
      { (default : ClassDecl) with
        identity := ⟨1⟩, name := "Parcel"
        constructors := [⟨[], fun _ _ => .done (.ok .null)⟩] }]
  restsOn := by decide

/-- What takes a parcel, named by one of the declarations, and notes. -/
def handover (parcel : ClassRef) : Shape :=
  ⟨"Handover", [.fixed "parcel" (.object parcel), .rest "notes"], .void⟩

/-- Makes a plain object and a function that does nothing. -/
def courier : ScriptCode :=
  .newObject fun _ => .newFunction "deliver" (fun _ _ => .done (.ok .undefined)) fun f =>
    .done (.ok (.function f))

/-- A function that delivers crosses and comes back for the first time. -/
theorem courier_transparent : ∃ (w : World) (c : Callable) (g : FunctionId) (u : World),
    Session.Visits parcels (World.start {}) w ∧ Session.Visits parcels w u ∧
    (w.heap.function ⟨0⟩).callable? = none ∧ c.shape = handover ⟨1⟩ ∧
    ∀ n this args, parcels.callFunction (parcels.reentry (n + 1)) g this args u =
      parcels.transparent (parcels.reentry (n + 1)) (parcels.reentry n) ⟨0⟩ (handover ⟨1⟩) args
        u := by
  have hsession : ∃ rep,
      Session.report parcels 0 none (.script courier) (World.start {}) = some rep ∧
      0 < rep.world.heap.functions.size ∧ (rep.world.heap.function ⟨0⟩).callable? = none ∧
      rep.world.exposer.bindings = [] ∧ rep.world.exposer.alive = true :=
    ⟨_, rfl, by decide, rfl, rfl, rfl⟩
  obtain ⟨rep, hrep, hf, hplain, hnone, halive⟩ := hsession
  have hw := Session.Visits.step .start hrep
  obtain ⟨c, w₁, g, w₂, hthere, hback, -, hshape, hlater⟩ :=
    bridged_functions_transparent hw hf hplain (by decide : RestLast (handover ⟨1⟩).params)
  have hexact : c.shape = handover ⟨1⟩ := by
    refine hshape.resolve_right ?_
    rintro ⟨b, hb, -⟩
    rw [hnone] at hb
    cases hb
  have hmoves := ((moves_toNative (moves_reentry parcels 0) _ _ (hthere _)).moves).trans
    (parcels.moves_toScript _ hback).moves
  obtain ⟨hcall, -⟩ := hlater w₂ .start
  refine ⟨_, c, g, w₂, hw, Session.Visits.start.moves hmoves, hplain, hexact, ?_⟩
  rw [← hexact]
  exact hcall ((World.Later.of_moves hmoves).alive.trans halive)

/-- The state once the courier is there and was wrapped for deliveries of the stub. -/
def hired : World where
  heap := {
    objects := #[.plain, .plain]
    functions := #[⟨"deliver", .hosted fun _ _ => .done (.ok .undefined)⟩] }
  callables := #[.delegate 1]
  exposer := {
    bindings := [⟨handover ⟨0⟩, ⟨0⟩, ⟨0, handover ⟨0⟩⟩⟩]
    delegates := ⟨[⟨0⟩]⟩ }

/-- The courier is hired in a session. -/
theorem visits_hired : Session.Visits parcels (World.start {}) hired := by
  have hsession : ∃ rep₁ rep₂,
      Session.report parcels 0 none (.script courier) (World.start {}) = some rep₁ ∧
      Session.report parcels 0 none (.bind (.done (.ok (.function ⟨0⟩))) (handover ⟨0⟩))
        rep₁.world = some rep₂ ∧ rep₂.world = hired :=
    ⟨_, _, rfl, rfl, rfl⟩
  obtain ⟨_, rep₂, h₁, h₂, hhired⟩ := hsession
  exact hhired ▸ .step (.step .start h₁) h₂

/-- A function that was wrapped for deliveries of the stub is not wrapped again for deliveries of
parcels. What comes back makes no parcel of a plain object, since the stub has no constructor,
although the object would arrive by the shape that was asked for. -/
theorem courier_takes_stubs : ∃ (c : Callable) (g : FunctionId) (w u v : World),
    Session.Visits parcels (World.start {}) hired ∧ (hired.heap.function ⟨0⟩).callable? = none ∧
    RestLast (handover ⟨1⟩).params ∧
    parcels.toNative (parcels.reentry 1) (.callable (handover ⟨1⟩)) (.function ⟨0⟩) hired =
      some (.ok (.callable c), hired) ∧
    parcels.toScript (.callable c) hired = some (.ok (.function g), w) ∧
    parcels.callFunction (parcels.reentry 2) g .undefined [.object ⟨1⟩] w =
      some (.error (.construction (.noDefaultConstructor "Parcel")), u) ∧
    parcels.transparent (parcels.reentry 2) (parcels.reentry 1) ⟨0⟩ (handover ⟨1⟩) [.object ⟨1⟩] w =
      some (.ok .undefined, v) := by
  have hsame : (handover ⟨0⟩).same parcels.identity (handover ⟨1⟩) = true := by
    simp [handover, Shape.same, sameParams, Param.same, NativeType.same, parcels, identity, decl]
  have hbind : (parcels.bind ⟨0⟩ (handover ⟨1⟩) : Run Error Callable) hired =
      some (.ok ⟨0, handover ⟨0⟩⟩, hired) :=
    bind_of_found (b := ⟨handover ⟨0⟩, ⟨0⟩, ⟨0, handover ⟨0⟩⟩⟩) (by simp [hired, hsame])
  exact ⟨_, _, _, _, _, visits_hired, rfl, by decide, map_ok hbind _, rfl, rfl, rfl⟩

end Catalog

end ScriptBoundary
