import Mathlib.Logic.Relation
import ScriptBoundary.Proofs.Receivers

/-!
# Failures keep their identity

Calls nest: a script calls a member, the code of the member calls a callback, the script function
behind the callback calls another member, and so on to any depth. `Catalog.Relays` says that one
thing that is under way begins another and passes its failure on, with one constructor for each way
in which a call leads to the next, and `Catalog.Nested` is a chain of these. The names along a chain
are those of the members and published callables whose calls cross from scripts to native code.

One link makes of a failure what a crossing makes of it (`Relays.fails`), so a whole chain makes of
it what its innermost crossing does (`Nested.fails`): an error that a crossing looks for stays what
it is, and anything else is attached to one name, the innermost. What is attached need not be the
host's own: of the bare errors of the parts of the boundary, crossings look for one sort only
(`HostError.isOverlooked`).
-/

namespace ScriptBoundary

open Run

/-! ## Code, request by request -/

namespace ScriptCode

/-- Script code with its first request answered. -/
def proceed (r : Reentry) : ScriptCode → Run Error ScriptCode
  | done result => return done result
  | newArray items next => do return next (← Run.onHeap (·.newArray items))
  | newObject next => do return next (← Run.onHeap (·.newObject .plain))
  | newFunction name body next => do
    return next (← Run.onHeap (·.newFunction ⟨name, .hosted body⟩))
  | readVariable name next => do return next (← Run.scriptVariable name)
  | readGlobal name next => do return next ((← r.global? name).getD .undefined)
  | define object key property next => do
    Run.onHeap fun h => (h.define object key property, ())
    return next
  | get object key next => do return next (← (r.get object key).attempt)
  | set object key value next => do return next (← (r.set object key value).attempt)
  | callMethod object key args next => do
    return next (← (r.callMethod object key args).attempt)
  | call function this args next => do
    return next (← (r.callFunction function this args).attempt)

/-- Code in one state comes to other code in another, by the answers to its requests. -/
def Leads (r : Reentry) : ScriptCode × World → ScriptCode × World → Prop :=
  Relation.ReflTransGen fun p q => p.1.proceed r p.2 = some (.ok q.1, q.2)

theorem run_eq_proceed (r : Reentry) (code : ScriptCode) :
    code.run r = code.proceed r >>= fun later => later.run r := by
  cases code <;> simp only [run, proceed, bind_assoc, pure_bind]

/-- Code runs as the code that it comes to. -/
theorem run_of_leads {r : Reentry} {p q : ScriptCode × World} (h : Leads r p q) :
    p.1.run r p.2 = q.1.run r q.2 := by
  induction h with
  | refl => rfl
  | tail _ hstep ih => rw [ih, run_eq_proceed, bind_ok hstep]

/-- The first request of code, in some state, comes to call a function in another state; how the
code goes on when that call fails. -/
inductive Calls (r : Reentry) : ScriptCode → World → FunctionId → ScriptValue → List ScriptValue →
    World → (Error → ScriptCode) → Prop
  | call {f : FunctionId} {this : ScriptValue} {args : List ScriptValue}
      {next : Except Error ScriptValue → ScriptCode} {w : World} :
      Calls r (.call f this args next) w f this args w fun e => next (.error e)
  /-- Reading a property with a getter calls the getter. -/
  | get {o : ObjectId} {key : String} {f : FunctionId} {setter : Option FunctionId}
      {next : Except Error ScriptValue → ScriptCode} {w : World}
      (getter : w.heap.lookup? o key = some (.accessor (some f) setter)) :
      Calls r (.get o key next) w f (.object o) [] w fun e => next (.error e)
  /-- Writing a property with a setter calls the setter. -/
  | set {o : ObjectId} {key : String} {value : ScriptValue} {f : FunctionId}
      {getter : Option FunctionId} {next : Except Error Unit → ScriptCode} {w : World}
      (setter : w.heap.lookup? o key = some (.accessor getter (some f))) :
      Calls r (.set o key value next) w f (.object o) [value] w fun e => next (.error e)
  /-- Calling a method calls the function that is read. -/
  | method {o : ObjectId} {key : String} {args : List ScriptValue} {f : FunctionId}
      {next : Except Error ScriptValue → ScriptCode} {w u : World}
      (read : r.get o key w = some (.ok (.function f), u)) :
      Calls r (.callMethod o key args next) w f (.object o) args u fun e => next (.error e)
  /-- Reading the function of a method may itself call a getter. -/
  | methodGet {o : ObjectId} {key : String} {args : List ScriptValue} {f : FunctionId}
      {setter : Option FunctionId} {next : Except Error ScriptValue → ScriptCode} {w : World}
      (getter : w.heap.lookup? o key = some (.accessor (some f) setter)) :
      Calls r (.callMethod o key args next) w f (.object o) [] w fun e => next (.error e)

end ScriptCode

namespace Reentry

variable {r : Reentry} {w w' : World} {o : ObjectId} {key : String} {f : FunctionId}

/-- A property with a getter is read by calling it. -/
theorem get_of_getter {setter : Option FunctionId}
    (h : w.heap.lookup? o key = some (.accessor (some f) setter)) :
    r.get o key w = r.callFunction f (.object o) [] w := by
  rw [get, bind_ok (ofHeap_apply _ w), h]

/-- A property with a setter is written by calling it. -/
theorem set_of_setter {getter : Option FunctionId}
    (h : w.heap.lookup? o key = some (.accessor getter (some f))) (value : ScriptValue) :
    r.set o key value w =
      (do let _ ← r.callFunction f (.object o) [value] : Run Error Unit) w := by
  rw [set, bind_ok (ofHeap_apply _ w), h]

end Reentry

/-- A call that fails is answered with its error. -/
theorem ScriptCode.Calls.proceed {r : Reentry} {code : ScriptCode} {w u v : World} {f : FunctionId}
    {this : ScriptValue} {args : List ScriptValue} {onError : Error → ScriptCode} {e : Error}
    (h : Calls r code w f this args u onError)
    (hfails : r.callFunction f this args u = some (.error e, v)) :
    code.proceed r w = some (.ok (onError e), v) := by
  cases h with
  | call => exact map_ok (attempt_some hfails) _
  | get getter =>
    exact map_ok (attempt_some ((Reentry.get_of_getter getter).trans hfails)) _
  | set setter =>
    exact map_ok (attempt_some ((Reentry.set_of_setter setter _).trans (bind_error hfails _))) _
  | method read => exact map_ok (attempt_some ((bind_ok read _).trans hfails)) _
  | methodGet getter =>
    have hread := (Reentry.get_of_getter getter).trans hfails
    exact map_ok (attempt_some (bind_error hread _)) _

namespace NativeCode

/-- Native code with its first request answered. -/
def proceed (r : Reentry) : NativeCode → Run HostError NativeCode
  | done result => return done result
  | script code next => do return next (← (code.run r).attempt)
  | readVariable name next => do return next (← Run.nativeVariable name)
  | newCallable shape body next => do return next (← Run.newCallable shape (.hosted body))
  | newInstance runtimeClass next => do return next (← Run.newInstance runtimeClass)
  | field target name next => do
    return next (← Run.read fun w => Keyed.get? name (w.instanceState target).fields)
  | setField target name value next => do
    Run.change (·.updateInstance target fun s => { s with fields := Keyed.put name value s.fields })
    return next
  | handlers target next => do
    return next (← Run.read fun w => (w.instanceState target).handlers)
  | setHandlers target kept next => do
    Run.change (·.updateInstance target fun s => { s with handlers := kept })
    return next
  | invoke callable args next => do return next (← (r.invoke callable args).attempt)

/-- Code in one state comes to other code in another, by the answers to its requests. -/
def Leads (r : Reentry) : NativeCode × World → NativeCode × World → Prop :=
  Relation.ReflTransGen fun p q => p.1.proceed r p.2 = some (.ok q.1, q.2)

theorem run_eq_proceed (r : Reentry) (code : NativeCode) :
    code.run r = code.proceed r >>= fun later => later.run r := by
  cases code <;> simp only [run, proceed, bind_assoc, pure_bind]

/-- Code runs as the code that it comes to. -/
theorem run_of_leads {r : Reentry} {p q : NativeCode × World} (h : Leads r p q) :
    p.1.run r p.2 = q.1.run r q.2 := by
  induction h with
  | refl => rfl
  | tail _ hstep ih => rw [ih, run_eq_proceed, bind_ok hstep]

end NativeCode

/-! ## One thing within another -/

/-- Something that can be under way. -/
inductive Task where
  /-- A call of a script function. -/
  | function (f : FunctionId) (this : ScriptValue) (args : List ScriptValue)
  /-- A call of a native callable. -/
  | callable (c : Callable) (args : List NativeValue)
  | script (code : ScriptCode)
  | native (code : NativeCode)

/-- A task, how deep calls may nest below it, and the state in which it begins. -/
structure Activity where
  depth : Nat
  task : Task
  world : World

namespace HostError

/-- The error of the boundary that a failure is, if it is one. A bare error of a part of the
boundary is the error of the boundary with that cause. -/
def own? : HostError → Option Error
  | foreign _ => none
  | boundary cause => some cause
  | conversion cause => some (.conversion cause)
  | resolution cause => some (.resolution cause)
  | construction cause => some (.construction cause)
  | settings cause => some (.settings cause)

/-- A failure is a bare error of a sort that crossings do not look for. -/
def isOverlooked : HostError → Bool
  | resolution _ | construction _ | settings _ => true
  | foreign _ | boundary _ | conversion _ => false

/-- What crossings of these names, the outermost first, make of a failure on its way out. The
innermost decides, since what it reports is an error of the boundary to all others. -/
def through (names : List String) : HostError → HostError
  | boundary cause => boundary cause
  | failure =>
    match names.getLast? with
    | some name => boundary (Error.ofHost name failure)
    | none => failure

/-- Through one crossing a failure becomes the error that the crossing reports. -/
theorem through_singleton (name : String) (failure : HostError) :
    failure.through [name] = .boundary (Error.ofHost name failure) := by
  cases failure <;> rfl

theorem through_nil (failure : HostError) : failure.through [] = failure := by
  cases failure <;> rfl

/-- What comes out of inner crossings passes outer ones as it is, if there was an inner one. -/
theorem through_append (outer inner : List String) (failure : HostError) :
    failure.through (outer ++ inner) = (failure.through inner).through outer := by
  cases hinner : inner.getLast? with
  | none => rw [List.getLast?_eq_none_iff.1 hinner, List.append_nil, through_nil]
  | some name =>
    -- The innermost name of all is that of the inner crossings.
    have hlast : (outer ++ inner).getLast? = some name := by
      rw [List.getLast?_append, hinner]
      rfl
    cases failure <;> simp only [through, hinner, hlast]

/-- An error of the boundary that comes out of crossings went in as it is, or is what the innermost
of them reports. -/
theorem eq_or_ofHost_of_through {names : List String} {failure : HostError} {e : Error}
    (h : failure.through names = .boundary e) :
    failure = .boundary e ∨ ∃ name, names.getLast? = some name ∧ e = Error.ofHost name failure := by
  cases hlast : names.getLast? with
  | none => exact .inl (by rw [← h, List.getLast?_eq_none_iff.1 hlast, through_nil])
  | some name =>
    refine .inr ⟨name, rfl, ?_⟩
    cases failure <;> simp only [through, hlast] at h <;> cases h <;> rfl

/-- The report of a crossing is the error that came in, unless that is overlooked. -/
theorem ofHost_eq_iff (name : String) {failure : HostError} {cause : Error}
    (h : failure.own? = some cause) :
    Error.ofHost name failure = cause ↔ failure.isOverlooked = false := by
  cases failure <;> cases h <;> simp [Error.ofHost, isOverlooked]

/-- What is no error of the boundary, or is overlooked, is attached to the name of the crossing. -/
theorem ofHost_of_foreign (name : String) {failure : HostError}
    (h : failure.own? = none ∨ failure.isOverlooked = true) :
    Error.ofHost name failure = .native name failure := by
  cases failure with
  | boundary | conversion => simp [own?, isOverlooked] at h
  | _ => rfl

end HostError

namespace Catalog

variable (catalog : Catalog)

/-- An activity ends with a failure, in a state. Scripts see errors of the boundary only. -/
def Fails (a : Activity) (failure : HostError) (w' : World) : Prop :=
  let r := catalog.reentry a.depth
  match a.task with
  | .function f this args => ∃ e, failure = .boundary e ∧
      catalog.callFunction r f this args a.world = some (.error e, w')
  | .callable c args => catalog.invoke r c args a.world = some (.error failure, w')
  | .script code => ∃ e, failure = .boundary e ∧ code.run r a.world = some (.error e, w')
  | .native code => code.run r a.world = some (.error failure, w')

/-- One activity begins another and passes on the failure with which that ends. Where this crosses
from scripts to native code, the crossing has the name of a member or of a callable. -/
inductive Relays : Activity → Option String → Activity → Prop
  /-- A script function runs its own code. -/
  | hosted {n : Nat} {f : FunctionId} {this : ScriptValue} {args : List ScriptValue} {w : World}
      {code : ScriptValue → List ScriptValue → ScriptCode}
      (body : (w.heap.function f).body = .hosted code) :
      Relays ⟨n, .function f this args, w⟩ none
        ⟨n, .script (code this args), w.noting (.function (w.heap.function f).name this args)⟩
  /-- The function of a member, whatever its role, runs the code of the member on the instance
  behind the receiver. -/
  | member {n : Nat} {f : FunctionId} {this : ScriptValue} {args : List ScriptValue} {w u : World}
      {plan : MemberPlan} {target : Instance} {i : Implementation}
      {natives given : List NativeValue}
      (offers : Offers f plan w) (receiver : World.receiver? w this = some target)
      (taken : catalog.takeArguments (catalog.reentry n) plan.adapter.intakes args w =
        some (.ok natives, u))
      (found : catalog.codeFor plan target = .ok i)
      (arguments : catalog.codeArguments plan.role natives = .ok given)
      (accepts : catalog.receives i.owner target.runtimeClass = true) :
      Relays ⟨n, .function f this args, w⟩ (some plan.member)
        ⟨n, .native (i.code target given), u.noting (i.call target given)⟩
  /-- The function of a published callable calls it. -/
  | face {n : Nat} {f : FunctionId} {this : ScriptValue} {args : List ScriptValue} {w u : World}
      {c : Callable} {natives : List NativeValue}
      (body : (w.heap.function f).body = .face c) (alive : w.exposer.alive = true)
      (taken : catalog.takeArguments (catalog.reentry (n + 1)) (Adapter.ofShape c.shape).intakes
        args w = some (.ok natives, u)) :
      Relays ⟨n + 1, .function f this args, w⟩ (some c.shape.name) ⟨n, .callable c natives, u⟩
  /-- A callable of the host's own runs its code. -/
  | callable {n : Nat} {c : Callable} {args : List NativeValue} {w : World}
      {code : List NativeValue → NativeCode}
      (body : w.callables.getD c.number default = .hosted code) :
      Relays ⟨n, .callable c args, w⟩ none
        ⟨n, .native (code args), w.noting (.callable c.shape.name args)⟩
  /-- A callable that is bridged from a script function calls it. -/
  | bridged {n : Nat} {c : Callable} {args : List NativeValue} {w u : World} {number : Nat}
      {f : FunctionId} {values : List ScriptValue}
      (body : w.callables.getD c.number default = .delegate number)
      (alive : w.exposer.alive = true) (kept : w.exposer.delegates.get? number = some f)
      (given : catalog.callbackArguments c.shape.params args w = some (.ok values, u)) :
      Relays ⟨n + 1, .callable c args, w⟩ none ⟨n, .function f .undefined values, u⟩
  /-- Script code calls a function, which may be the getter or setter of a property, and ends with
  the error that it receives. -/
  | call {n : Nat} {code waiting : ScriptCode} {w v u : World} {f : FunctionId}
      {this : ScriptValue} {args : List ScriptValue} {onError : Error → ScriptCode}
      (leads : ScriptCode.Leads (catalog.reentry (n + 1)) (code, w) (waiting, v))
      (calls : waiting.Calls (catalog.reentry (n + 1)) v f this args u onError)
      (passes : ∀ e u', catalog.callFunction (catalog.reentry n) f this args u =
        some (.error e, u') → ∃ w', ScriptCode.Leads (catalog.reentry (n + 1)) (onError e, u')
          (.done (.error e), w')) :
      Relays ⟨n + 1, .script code, w⟩ none ⟨n, .function f this args, u⟩
  /-- Native code calls a callable and ends with the failure that it receives. -/
  | invoke {n : Nat} {code : NativeCode} {w u : World} {c : Callable} {args : List NativeValue}
      {next : Except HostError NativeValue → NativeCode}
      (leads : NativeCode.Leads (catalog.reentry (n + 1)) (code, w) (.invoke c args next, u))
      (passes : ∀ failure u', catalog.invoke (catalog.reentry n) c args u =
        some (.error failure, u') → ∃ w', NativeCode.Leads (catalog.reentry (n + 1))
          (next (.error failure), u') (.done (.error failure), w')) :
      Relays ⟨n + 1, .native code, w⟩ none ⟨n, .callable c args, u⟩
  /-- Native code runs script code and ends with the error that it receives. -/
  | script {n : Nat} {code : NativeCode} {w u : World} {inner : ScriptCode}
      {next : Except Error ScriptValue → NativeCode}
      (leads : NativeCode.Leads (catalog.reentry n) (code, w) (.script inner next, u))
      (passes : ∀ e u', inner.run (catalog.reentry n) u = some (.error e, u') →
        ∃ w', NativeCode.Leads (catalog.reentry n) (next (.error e), u')
          (.done (.error (.boundary e)), w')) :
      Relays ⟨n, .native code, w⟩ none ⟨n, .script inner, u⟩

/-- One activity within another, to any depth, and the names of the crossings between them, the
outermost first. -/
inductive Nested : Activity → List String → Activity → Prop
  | self (a : Activity) : Nested a [] a
  | within {a b c : Activity} {name : Option String} {names : List String}
      (outer : catalog.Relays a name b) (rest : Nested b names c) :
      Nested a (name.toList ++ names) c

variable {catalog}

/-- One link: what the inner activity fails with, the outer one fails with as far as the crossing
between them leaves it. -/
theorem Relays.fails {a b : Activity} {name : Option String} (h : catalog.Relays a name b)
    {failure : HostError} {v : World} (hfails : catalog.Fails b failure v) :
    ∃ w', catalog.Fails a (failure.through name.toList) w' := by
  cases h with
  | @hosted n f this args w code body =>
    obtain ⟨e, rfl, hrun⟩ := hfails
    refine ⟨v, e, rfl, ?_⟩
    rw [callFunction, bind_ok (ofHeap_apply _ w), body]
    exact hrun
  | @member n f this args w u plan target i natives given offers receiver taken found arguments
      accepts =>
    refine ⟨v, Error.ofHost plan.member failure, HostError.through_singleton _ _, ?_⟩
    have hcode : catalog.runImplementation (catalog.reentry n) i target given u =
        some (.error failure, v) := by
      rw [runImplementation, if_pos accepts]
      exact hfails
    rw [callFunction_of_offers offers, callMember_of_receiver receiver, bind_ok taken, found,
      ofExcept_ok_bind, arguments, ofExcept_ok_bind]
    exact bind_error (mapError_some hcode _) _
  | @face n f this args w u c natives body alive taken =>
    refine ⟨v, Error.ofHost c.shape.name failure, HostError.through_singleton _ _, ?_⟩
    rw [callFunction, bind_ok (ofHeap_apply _ w), body]
    refine (bind_ok (requireAlive_of_alive alive) _).trans ?_
    rw [callFace_eq, cross, bind_ok taken]
    exact bind_error (mapError_some hfails _) _
  | @callable n c args w code body =>
    refine ⟨v, ?_⟩
    rw [Option.toList_none, HostError.through_nil]
    show catalog.invoke _ c args w = _
    rw [Catalog.invoke, bind_ok (read_apply _ w), body]
    exact hfails
  | @bridged n c args w u number f values body alive kept given =>
    obtain ⟨e, rfl, hcall⟩ := hfails
    refine ⟨v, ?_⟩
    show catalog.invoke _ c args w = _
    rw [Catalog.invoke, bind_ok (read_apply _ w), body]
    have hdelegate : catalog.callDelegate (catalog.reentry (n + 1)) c.shape number args w =
        some (.error e, v) := by
      rw [callDelegate, bind_ok (requireAlive_of_alive alive), bind_ok (read_apply _ w), kept]
      exact (bind_ok given _).trans (bind_error hcall _)
    exact mapError_some hdelegate _
  | @call n code waiting w v' u f this args onError leads calls passes =>
    obtain ⟨e, rfl, hcall⟩ := hfails
    obtain ⟨w', hpasses⟩ := passes e v hcall
    refine ⟨w', e, rfl, ?_⟩
    rw [ScriptCode.run_of_leads leads, ScriptCode.run_eq_proceed, bind_ok (calls.proceed hcall)]
    exact ScriptCode.run_of_leads hpasses
  | @invoke n code w u c args next leads passes =>
    obtain ⟨w', hpasses⟩ := passes failure v hfails
    refine ⟨w', ?_⟩
    rw [Option.toList_none, HostError.through_nil]
    have hanswer : (NativeCode.invoke c args next).proceed (catalog.reentry (n + 1)) u =
        some (.ok (next (.error failure)), v) := map_ok (attempt_some hfails) _
    show code.run _ w = _
    rw [NativeCode.run_of_leads leads, NativeCode.run_eq_proceed, bind_ok hanswer]
    exact NativeCode.run_of_leads hpasses
  | @script n code w u inner next leads passes =>
    obtain ⟨e, rfl, hrun⟩ := hfails
    obtain ⟨w', hpasses⟩ := passes e v hrun
    refine ⟨w', ?_⟩
    have hanswer : (NativeCode.script inner next).proceed (catalog.reentry n) u =
        some (.ok (next (.error e)), v) := map_ok (attempt_some hrun) _
    show code.run _ w = _
    rw [NativeCode.run_of_leads leads, NativeCode.run_eq_proceed, bind_ok hanswer]
    exact NativeCode.run_of_leads hpasses

/-- A chain: what the innermost activity fails with comes out through all crossings. -/
theorem Nested.fails {a b : Activity} {names : List String} (h : catalog.Nested a names b)
    {failure : HostError} {v : World} (hfails : catalog.Fails b failure v) :
    ∃ w', catalog.Fails a (failure.through names) w' := by
  induction h with
  | self a => exact ⟨v, by rw [HostError.through_nil]; exact hfails⟩
  | within outer _ ih =>
    obtain ⟨u, hinner⟩ := ih hfails
    obtain ⟨w', houter⟩ := outer.fails hinner
    exact ⟨w', by rw [HostError.through_append]; exact houter⟩

/-- Which errors keep their identity across the boundary. However deep what fails is nested within a
call of a script function, with everything between passing the failure on, the call fails too. It
fails with that very error, if that is one of the boundary, exactly unless it is a bare error of a
sort that crossings do not look for; such an error, and a failure of the host's own, is attached to
the name of the innermost crossing, once. -/
theorem errors_keep_identity (catalog : Catalog) {n : Nat} {f : FunctionId} {this : ScriptValue}
    {args : List ScriptValue} {w v : World} {names : List String} {inner : Activity}
    {failure : HostError} (hnest : catalog.Nested ⟨n, .function f this args, w⟩ names inner)
    (hfails : catalog.Fails inner failure v) :
    ∃ e w', catalog.callFunction (catalog.reentry n) f this args w = some (.error e, w') ∧
      (∀ cause, failure.own? = some cause → (e = cause ↔ failure.isOverlooked = false)) ∧
      (failure.own? = none ∨ failure.isOverlooked = true →
        ∃ name, names.getLast? = some name ∧ e = .native name failure) := by
  obtain ⟨w', e, hthrough, hcall⟩ := hnest.fails hfails
  refine ⟨e, w', hcall, ?_⟩
  rcases HostError.eq_or_ofHost_of_through hthrough with rfl | ⟨name, hlast, rfl⟩
  · -- The failure was an error of the boundary from the start, and no crossing changed it.
    refine ⟨fun cause hcause => ?_, fun h => ?_⟩
    · cases hcause
      exact iff_of_true rfl rfl
    · rcases h with h | h <;> cases h
  · exact ⟨fun cause => HostError.ofHost_eq_iff name,
      fun h => ⟨name, hlast, HostError.ofHost_of_foreign name h⟩⟩

/-- What a courier calls when it is there. -/
def receipt : Shape := ⟨"Receipt", [], .void⟩

/-- Couriers call back when they deliver, have nothing to sign with, and cannot tell what to load.
Depots have no courier's members. -/
def couriers : Catalog where
  decls := [{
    (default : ClassDecl) with
    identity := ⟨1⟩
    name := "Courier"
    methods := [
      ⟨"deliver", [.fixed "done" (.callable receipt)], .void, some (.function none),
        some fun _ args => match args with
          | .callable c :: _ => .invoke c [] .done
          | _ => .done (.ok .null)⟩,
      ⟨"sign", [], .void, some (.function none),
        some fun _ _ => .done (.error (.foreign "no pen"))⟩,
      ⟨"load", [], .void, some (.function none),
        some fun _ _ => .done (.error (.resolution (.notAnInterface "Van")))⟩] },
    { (default : ClassDecl) with identity := ⟨2⟩, name := "Depot" }]
  restsOn := by decide

/-- A courier and a depot, the functions of the courier's members, and a script function that has
the courier sign. -/
def delivery : World where
  heap := {
    objects := #[.plain, ⟨"CourierProxy", [], some ⟨1, ⟨0⟩⟩, []⟩,
      ⟨"DepotProxy", [], some ⟨2, ⟨1⟩⟩, []⟩]
    functions := #[
      ⟨"deliver", .member ⟨"deliver", "deliver", .method,
        ⟨[.converted (.callable receipt)], .discarded⟩, none⟩⟩,
      ⟨"sign", .member ⟨"sign", "sign", .method, ⟨[], .discarded⟩,
        couriers.implementation? ⟨0⟩ .method "sign"⟩⟩,
      ⟨"done", .hosted fun _ _ => .call ⟨1⟩ (.object ⟨1⟩) [] .done⟩,
      ⟨"load", .member ⟨"load", "load", .method, ⟨[], .discarded⟩,
        couriers.implementation? ⟨0⟩ .method "load"⟩⟩] }
  instances := #[{}, {}]

/-- What fails within a callback within a delivery is reported under the name of the member that was
called last. -/
theorem delivery_keeps_identity :
    ∃ e w', couriers.callFunction (couriers.reentry 3) ⟨0⟩ (.object ⟨1⟩) [.function ⟨2⟩] delivery =
      some (.error e, w') ∧ e = .native "sign" (.foreign "no pen") := by
  -- A delivery calls back, the callback calls the function behind it, which has the courier sign.
  have hnest : ∃ names inner v, couriers.Nested
      ⟨3, .function ⟨0⟩ (.object ⟨1⟩) [.function ⟨2⟩], delivery⟩ names inner ∧
        couriers.Fails inner (.foreign "no pen") v ∧ names = ["deliver", "sign"] := by
    exact ⟨_, _, _, .within (.member ⟨rfl, rfl⟩ rfl rfl rfl rfl rfl) <|
      .within (.invoke .refl fun failure u' _ => ⟨u', .refl⟩) <|
      .within (.bridged rfl rfl rfl rfl) <|
      .within (.hosted rfl) <|
      .within (.call .refl .call fun e u' _ => ⟨u', .refl⟩) <|
      .within (.member ⟨rfl, rfl⟩ rfl rfl rfl rfl rfl) (.self _), rfl, rfl⟩
  obtain ⟨names, inner, v, hnest, hfails, rfl⟩ := hnest
  obtain ⟨e, w', hcall, -, hforeign⟩ := errors_keep_identity couriers hnest hfails
  obtain ⟨name, hname, he⟩ := hforeign (.inl rfl)
  cases hname
  exact ⟨e, w', hcall, he⟩

/-- Failures that are not the host's own and are reported as if they were: the bare error of another
part of the boundary that a member passes on, and the refusal of a receiver that is not of the
member's class, before any code of the host has run. -/
theorem own_failures_attached :
    (∃ w', couriers.callFunction (couriers.reentry 1) ⟨3⟩ (.object ⟨1⟩) [] delivery =
      some (.error (.native "load" (.resolution (.notAnInterface "Van"))), w')) ∧
    ∃ w', couriers.callFunction (couriers.reentry 1) ⟨1⟩ (.object ⟨2⟩) [] delivery =
      some (.error (.native "sign" (.foreign "receiver is not an instance of Courier")), w') :=
  ⟨⟨_, rfl⟩, _, rfl⟩

end Catalog

end ScriptBoundary
