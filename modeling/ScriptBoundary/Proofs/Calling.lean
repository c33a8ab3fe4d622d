import ScriptBoundary.Proofs.Adapters
import ScriptBoundary.Proofs.Running

/-!
# Calls are made of moves

Conversions to native and calls in both directions change the state by moves only, at every depth of
calls within calls (`moves_reentry`). The code of a member runs in two places, and each of them has
what the move asks for at hand before it runs code in between: the function with its plan, or the
members of the class that a plain object fills. Moves do not undo either, so it is carried along
as a condition (`MovesFrom`).
-/

namespace ScriptBoundary

open Run

namespace Catalog

variable {catalog : Catalog} {r : Reentry} (hr : r.Moves catalog)

/-- The instance behind a receiver. -/
def World.receiver? (w : World) : ScriptValue → Option Instance
  | .object o => (w.heap.object o).target
  | _ => none

theorem receiver_apply (plan : MemberPlan) (this : ScriptValue) (w : World) :
    receiver plan this w = some (match World.receiver? w this with
      | some target => .ok target
      | none => .error (.script
        (plan.name ++ " called on an incompatible receiver (" ++ this.typeName ++ ")")), w) := by
  cases this with
  | object o =>
    rw [receiver, bind_ok (ofHeap_apply _ w), World.receiver?]
    cases (w.heap.object o).target <;> rfl
  | _ => rfl

/-! ## Code of members -/

/-- A condition that moves do not undo. -/
def Kept (catalog : Catalog) (P : World → Prop) : Prop :=
  ∀ ⦃w w' : World⦄, catalog.Moves w w' → P w → P w'

/-- Moves from the states that meet a condition. -/
def MovesFrom (catalog : Catalog) (P : World → Prop) (w w' : World) : Prop :=
  P w → catalog.OwnMoves w w'

theorem isPreorder_movesFrom {P : World → Prop} (hP : catalog.Kept P) :
    IsPreorder World (catalog.MovesFrom P) where
  refl _ := fun _ => .refl
  trans _ _ _ h₁ h₂ := fun hw => (h₁ hw).trans (h₂ (hP (h₁ hw).moves hw))

/-- What moves from every state moves from those that meet a condition. -/
theorem movesFrom_of_moves {ε α : Type} {x : Run ε α} (h : x.Within catalog.OwnMoves)
    (P : World → Prop) : x.Within (catalog.MovesFrom P) :=
  h.mono fun _ _ hmoves _ => hmoves

/-- A function has a plan and works. -/
def Offers (f : FunctionId) (plan : MemberPlan) (w : World) : Prop :=
  w.exposer.alive = true ∧ (w.heap.function f).body = .member plan

/-- Functions keep their plans and go on working. -/
theorem kept_offers (f : FunctionId) (plan : MemberPlan) : catalog.Kept (Offers f plan) := by
  intro w w' h hw
  have hlater := World.Later.of_moves h
  exact ⟨hlater.alive.trans hw.1, hlater.heap.member f plan hw.2⟩

/-- Classes keep the members that scripts see. -/
theorem kept_exposedIn (c : ClassRef) (members : List ExposedMember) :
    catalog.Kept fun w => catalog.exposedIn w c = .ok members := by
  intro w w' h hw
  have hlater := World.Later.of_moves h
  rwa [exposedIn, hlater.settings, hlater.registrations]

section

include hr

/-- Running the code of a member moves, if noting its call does. -/
theorem moves_runImplementation {P : World → Prop} (hP : catalog.Kept P) {i : Implementation}
    {target : Instance} {args : List NativeValue}
    (hcall : catalog.receives i.owner target.runtimeClass = true →
      ∀ w, P w → catalog.Move w (w.noting (i.call target args))) :
    (catalog.runImplementation r i target args).Within (catalog.MovesFrom P) := by
  have := isPreorder_movesFrom hP
  unfold runImplementation
  split
  · next hreceives =>
    refine .bind (.change fun w hw => (hcall hreceives w hw).own rfl rfl) fun _ => ?_
    exact movesFrom_of_moves (moves_nativeCode hr _) P
  · exact .throw _

/-! ## To native -/

theorem moves_toJson (n : Nat) (value : ScriptValue) :
    (r.toJson n value).Within catalog.OwnMoves := by
  induction n generalizing value with
  | zero => exact .exhausted
  | succ n ih =>
    unfold Reentry.toJson
    split
    · exact .pure _
    · exact .pure _
    · exact .pure _
    · exact .pure _
    · exact .pure _
    · exact .pure _
    · exact .pure _
    · exact .pure _
    · exact .pure _
    · exact .bind (.ofHeap _) fun _ => .bind (.mapM fun item _ => ih item) fun _ => .pure _
    · refine .bind (.mapError (moves_entries hr _) _) fun entries => ?_
      refine .bind (.mapM fun entry _ => ?_) fun _ => .pure _
      exact .bind (ih _) fun _ => .pure _

theorem moves_jsonText (value : ScriptValue) : (r.jsonText value).Within catalog.OwnMoves := by
  refine .bind (moves_toJson hr _ _) fun tree => ?_
  split
  · exact .pure _
  · exact .throw _

theorem moves_textEntries (o : ObjectId) : (r.textEntries o).Within catalog.OwnMoves := by
  refine .bind (moves_entries hr o) fun entries => .bind (.mapM fun entry _ => ?_) fun _ => .pure _
  split
  split
  · exact .bind (.ofHeap _) fun _ => .pure _
  · exact .pure _

theorem moves_plainValue (o : ObjectId) (p : FillableProperty) :
    (r.plainValue o p).Within catalog.OwnMoves := by
  refine .bind (moves_get hr _ _) fun value => ?_
  split
  · exact moves_get hr _ _
  · exact .pure _

theorem moves_anyToNative (n : Nat) (value : ScriptValue) :
    (catalog.anyToNative r n value).Within catalog.OwnMoves := by
  induction n generalizing value with
  | zero => exact .exhausted
  | succ n ih =>
    unfold anyToNative
    split
    · exact .pure _
    · exact .pure _
    · exact .pure _
    · exact .pure _
    · exact .pure _
    · exact .pure _
    · exact .pure _
    · exact .bind (.ofExcept _) fun _ => .pure _
    · exact .bind (.ofHeap _) fun _ => .bind (.mapM fun item _ => ih item) fun _ => .pure _
    · refine .bind (.ofHeap _) fun object => ?_
      split
      · exact .pure _
      · refine .bind (moves_entries hr _) fun entries => ?_
        refine .bind (.mapM fun entry _ => ?_) fun _ => .pure _
        exact .bind (ih _) fun _ => .pure _
    · exact .bind (catalog.moves_callableFor _ _) fun _ => .pure _

/-- Filling a property of an instance runs a setter that a plain object fills. -/
theorem moves_fill (o : ObjectId) (target : Instance) {members : List ExposedMember}
    {p : FillableProperty} (hp : p ∈ catalog.fillables target.runtimeClass members) :
    (catalog.fill r o target p).Within
      (catalog.MovesFrom fun w => catalog.exposedIn w target.runtimeClass = .ok members) := by
  have hkept := catalog.kept_exposedIn target.runtimeClass members
  have := isPreorder_movesFrom hkept
  -- Reading the plain object may call anything, but the class exposes the same afterwards.
  have hset : ∀ value : NativeValue, ((catalog.runImplementation r p.setter target [value]).mapError
      (Error.ofHost p.member)).Within
        (catalog.MovesFrom fun w => catalog.exposedIn w target.runtimeClass = .ok members) :=
    fun value => .mapError (moves_runImplementation hr hkept fun hreceives w hw =>
      .fillCall hw hp hreceives _) _
  refine .bind (movesFrom_of_moves (moves_plainValue hr o p) _) fun given => ?_
  dsimp only
  split
  · refine .bind (.pure _) fun value => ?_
    split
    · exact .pure _
    · exact .bind (hset _) fun _ => .pure _
  · refine .bind (movesFrom_of_moves ?_ _) fun value => ?_
    · exact .bind (hr.toNative _ _) fun _ => .pure _
    · split
      · exact .pure _
      · exact .bind (hset _) fun _ => .pure _

/-- Filling the properties of an instance from a plain object. -/
theorem moves_fillAll (o : ObjectId) (target : Instance) :
    (do
      let members ← catalog.resolve target.runtimeClass
      (catalog.fillables target.runtimeClass members).forM (catalog.fill r o target) :
        Run Error Unit).Within catalog.OwnMoves := by
  intro w result w' h
  have hresolve := resolve_apply catalog target.runtimeClass w
  cases hm : catalog.exposedIn w target.runtimeClass with
  | error e =>
    rw [exposedIn] at hm
    rw [hm] at hresolve
    rw [bind_error hresolve] at h
    cases h
    exact .refl
  | ok members =>
    have hexposed := hm
    rw [exposedIn] at hm
    rw [hm] at hresolve
    rw [bind_ok hresolve] at h
    have := isPreorder_movesFrom (catalog.kept_exposedIn target.runtimeClass members)
    exact Within.forM (fun p hp => moves_fill hr o target hp) h hexposed

theorem moves_constructFromPlain (o : ObjectId) (c : ClassRef) :
    (catalog.constructFromPlain r o c).Within catalog.OwnMoves := by
  have hconstruct : ∀ k : ConstructorDecl, (do
      let target ← (r.runConstructor c (catalog.made c) k.code []).mapError fun e =>
        .construction (.failed (catalog.name c) e)
      let members ← catalog.resolve target.runtimeClass
      (catalog.fillables target.runtimeClass members).forM (catalog.fill r o target)
      return .object target : Run Error NativeValue).Within catalog.OwnMoves := by
    intro k
    refine .bind (.mapError (moves_runConstructor hr c _ k.code []) _) fun target => ?_
    rw [← bind_assoc]
    exact .bind (moves_fillAll hr o target) fun _ => .pure _
  unfold constructFromPlain
  dsimp only
  split
  · refine .bind (.throw _) fun _ => ?_
    split
    · exact .throw _
    · exact hconstruct _
  · split
    · exact .throw _
    · exact hconstruct _

theorem moves_objectToNative (o : ObjectId) (c : ClassRef) :
    (catalog.objectToNative r o c).Within catalog.OwnMoves := by
  refine .bind (.ofHeap _) fun object => ?_
  split
  · split
    · exact .pure _
    · exact .throw _
  · exact moves_constructFromPlain hr o c

theorem moves_toNative (type : NativeType) (value : ScriptValue) :
    (catalog.toNative r type value).Within catalog.OwnMoves := by
  -- By induction on the size of the type, since the cases are told by type and value together.
  induction hn : sizeOf type using Nat.strongRecOn generalizing type value with
  | _ n ih =>
    subst hn
    unfold toNative
    split
    · exact .pure _
    · split
      · exact .pure _
      · exact .pure _
      · exact .bind (.ofExcept _) fun _ => .pure _
      · exact .bind (.ofExcept _) fun _ => .pure _
      · exact .pure _
      · exact .bind (.ofExcept _) fun _ => .pure _
      · exact .pure _
      · exact .bind (.ofExcept _) fun _ => .pure _
      · next element a _ =>
        refine .bind (.ofHeap _) fun items => .bind (.mapM fun item _ => ?_) fun _ => .pure _
        exact ih _ (by simp) element item rfl
      · exact .throw _
      · next element o _ =>
        refine .bind (moves_entries hr o) fun entries => ?_
        refine .bind (.mapM fun entry _ => ?_) fun _ => .pure _
        exact .bind (ih _ (by simp) element entry.2 rfl) fun _ => .pure _
      · exact .bind (moves_textEntries hr _) fun _ => .pure _
      · exact .bind (catalog.moves_callableFor _ _) fun _ => .pure _
      · exact .bind (moves_jsonText hr _) fun _ => .pure _
      · exact moves_objectToNative hr _ _
      · exact moves_anyToNative hr _ _
      · exact .throw _

/-! ## To native code and back -/

theorem moves_takeArguments (intakes : List Intake) (args : List ScriptValue) :
    (catalog.takeArguments r intakes args).Within catalog.OwnMoves := by
  induction intakes generalizing args with
  | nil => exact .pure _
  | cons intake intakes ih =>
    cases intake with
    | converted type =>
      exact .bind (moves_toNative hr type _) fun _ => .bind (ih _) fun _ => .pure _
    | rest => exact .bind (ih _) fun _ => .pure _

omit hr in
theorem moves_giveResult (outcome : Outcome) (v : NativeValue) :
    (catalog.giveResult outcome v).Within catalog.OwnMoves := by
  cases outcome with
  | discarded => exact .pure _
  | checked type => exact catalog.moves_toScriptAs type v

/-- A crossing moves from where its native code does. -/
theorem moves_cross {P : World → Prop} (hP : catalog.Kept P) (a : Adapter)
    (args : List ScriptValue) {native : List NativeValue → Run Error NativeValue}
    (hnative : ∀ natives, (native natives).Within (catalog.MovesFrom P)) :
    (catalog.cross r a args native).Within (catalog.MovesFrom P) := by
  have := isPreorder_movesFrom hP
  refine .bind (movesFrom_of_moves (moves_takeArguments hr _ args) P) fun natives => ?_
  refine .bind (hnative natives) fun v => ?_
  exact movesFrom_of_moves (moves_giveResult _ v) P

/-- The code that a plan reaches runs for a function that has the plan. -/
theorem moves_runMember (f : FunctionId) (plan : MemberPlan) (target : Instance)
    (natives : List NativeValue) :
    (catalog.runMember r plan target natives).Within
      (catalog.MovesFrom (Offers f plan)) := by
  have hkept := catalog.kept_offers f plan
  have := isPreorder_movesFrom hkept
  -- Only code that the plan finds on the instance is run.
  refine .bind_ofExcept fun i hi => ?_
  have hcode : ∀ args, ((catalog.runImplementation r i target args).mapError
      (Error.ofHost plan.member)).Within
        (catalog.MovesFrom (Offers f plan)) :=
    fun args => .mapError (moves_runImplementation hr hkept fun hreceives w hw =>
      .memberCall hw.1 hw.2 hi hreceives _) _
  dsimp only
  split
  · exact hcode _
  · exact hcode _
  · exact .bind (hcode _) fun _ => .pure _
  · exact .bind (.ofExcept _) fun _ => .bind (hcode _) fun _ => .pure _
  · exact .bind (.ofExcept _) fun _ => .bind (hcode _) fun _ => .pure _

omit hr in
theorem within_receiver {R : World → World → Prop} [IsPreorder World R] (plan : MemberPlan)
    (this : ScriptValue) : (receiver plan this).Within R := by
  intro w result w' h
  rw [receiver_apply] at h
  cases h
  exact Std.Refl.refl w

theorem moves_callMember (f : FunctionId) (plan : MemberPlan) (this : ScriptValue)
    (args : List ScriptValue) :
    (catalog.callMember r plan this args).Within
      (catalog.MovesFrom (Offers f plan)) := by
  have hkept := catalog.kept_offers f plan
  have hpreorder := isPreorder_movesFrom hkept
  rw [callMember_eq]
  refine .bind (within_receiver plan this) fun target => ?_
  exact moves_cross hr hkept plan.adapter args (moves_runMember hr f plan target)

/-- A crossing whose native code moves from every state moves from every state. -/
theorem moves_cross_always (a : Adapter) (args : List ScriptValue)
    {native : List NativeValue → Run Error NativeValue}
    (hnative : ∀ natives, (native natives).Within catalog.OwnMoves) :
    (catalog.cross r a args native).Within catalog.OwnMoves :=
  .bind (moves_takeArguments hr _ args) fun natives =>
    .bind (hnative natives) fun v => moves_giveResult _ v

theorem moves_construct (d : Definition) (args : List ScriptValue) :
    (catalog.construct r d args).Within catalog.OwnMoves := by
  rw [construct_eq]
  split
  · exact .throw _
  · refine .mapError (moves_cross_always hr _ args fun natives => ?_) _
    exact .bind (.mapError (moves_runConstructor hr _ _ _ natives) _) fun _ => .pure _

theorem moves_callFace (c : Callable) (args : List ScriptValue) :
    (catalog.callFace r c args).Within catalog.OwnMoves := by
  rw [callFace_eq]
  exact moves_cross_always hr _ args fun natives => .mapError (hr.invoke c natives) _

omit hr in
theorem within_requireAlive {R : World → World → Prop} [IsPreorder World R] :
    Run.requireAlive.Within R := by
  refine .bind (.read _) fun alive => ?_
  split
  · exact .pure _
  · exact .throw _

omit hr in
theorem requireAlive_of_alive {w : World} (h : w.exposer.alive = true) :
    Run.requireAlive w = some (.ok (), w) := by
  rw [Run.requireAlive, bind_ok (read_apply _ w), if_pos h]
  rfl

omit hr in
theorem requireAlive_of_disposed {w : World} (h : w.exposer.alive = false) :
    Run.requireAlive w = some (.error .disposed, w) := by
  rw [Run.requireAlive, bind_ok (read_apply _ w), if_neg (ne_true_of_eq_false h)]
  rfl

omit hr in
/-- Calling a function that offers a member calls the member. -/
theorem callFunction_of_offers {f : FunctionId} {plan : MemberPlan} {w : World}
    (h : Offers f plan w) (this : ScriptValue) (args : List ScriptValue) :
    catalog.callFunction r f this args w = catalog.callMember r plan this args w := by
  rw [callFunction, bind_ok (ofHeap_apply _ w), h.2]
  exact bind_ok (requireAlive_of_alive h.1) _

omit hr in
/-- The function of a member fails once the exposer is gone. -/
theorem callFunction_of_disposed {f : FunctionId} {plan : MemberPlan} {w : World}
    (hbody : (w.heap.function f).body = .member plan) (halive : w.exposer.alive = false)
    (this : ScriptValue) (args : List ScriptValue) :
    catalog.callFunction r f this args w = some (.error .disposed, w) := by
  rw [callFunction, bind_ok (ofHeap_apply _ w), hbody]
  exact bind_error (requireAlive_of_disposed halive) _

/-- Calling a function moves. -/
theorem moves_callFunction (f : FunctionId) (this : ScriptValue) (args : List ScriptValue) :
    (catalog.callFunction r f this args).Within catalog.OwnMoves := by
  intro w result w' h
  cases hbody : (w.heap.function f).body with
  | hosted code =>
    rw [callFunction, bind_ok (ofHeap_apply _ w), hbody] at h
    have hnote : (Run.record (.function (w.heap.function f).name this args) : Run Error Unit).Within
        catalog.OwnMoves := catalog.moves_record trivial
    exact Within.bind hnote (fun _ => moves_scriptCode hr _) h
  | member plan =>
    cases halive : w.exposer.alive with
    | false =>
      rw [callFunction_of_disposed hbody halive] at h
      cases h
      exact .refl
    | true =>
      have hoffers : Offers f plan w := ⟨halive, hbody⟩
      rw [callFunction_of_offers hoffers] at h
      exact moves_callMember hr f plan this args h hoffers
  | construct d =>
    rw [callFunction, bind_ok (ofHeap_apply _ w), hbody] at h
    exact Within.bind within_requireAlive (fun _ => moves_construct hr d args) h
  | face c =>
    rw [callFunction, bind_ok (ofHeap_apply _ w), hbody] at h
    exact Within.bind within_requireAlive (fun _ => moves_callFace hr c args) h

omit hr in
theorem moves_callbackArguments (params : List Param) (args : List NativeValue) :
    (catalog.callbackArguments params args).Within catalog.OwnMoves := by
  induction params generalizing args with
  | nil => exact .pure _
  | cons param params ih =>
    cases param with
    | fixed name type =>
      unfold callbackArguments
      dsimp only
      split
      · exact .bind (catalog.moves_toScript _) fun _ => .bind (ih _) fun _ => .pure _
      · exact .bind (.pure _) fun _ => .bind (ih _) fun _ => .pure _
    | rest name => exact .bind (.ofExcept _) fun _ => .bind (ih _) fun _ => .pure _

theorem moves_callDelegate (shape : Shape) (number : Nat) (args : List NativeValue) :
    (catalog.callDelegate r shape number args).Within catalog.OwnMoves := by
  refine .bind within_requireAlive fun _ => .bind (.read _) fun found => ?_
  split
  · exact .throw _
  · refine .bind (moves_callbackArguments _ args) fun values => ?_
    refine .bind (hr.callFunction _ _ _) fun result => ?_
    split
    · exact .pure _
    · exact moves_toNative hr _ result

/-- Calling a callable moves. -/
theorem moves_invoke (c : Callable) (args : List NativeValue) :
    (catalog.invoke r c args).Within catalog.OwnMoves := by
  refine .bind (.read _) fun body => ?_
  split
  · exact .bind (catalog.moves_record trivial) fun _ => moves_nativeCode hr _
  · exact .mapError (moves_callDelegate hr _ _ args) _

end

/-- All levels of calls change the state by moves only. -/
theorem moves_reentry (catalog : Catalog) (n : Nat) : (catalog.reentry n).Moves catalog := by
  induction n with
  | zero => exact ⟨fun _ _ _ => .exhausted, fun _ _ => .exhausted, fun _ _ => .exhausted⟩
  | succ n ih => exact ⟨moves_callFunction ih, moves_invoke ih, moves_toNative ih⟩

end Catalog

end ScriptBoundary
