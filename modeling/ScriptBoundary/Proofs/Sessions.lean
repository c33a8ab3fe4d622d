import ScriptBoundary.Proofs.Calling
import ScriptBoundary.Session

/-!
# Sessions are made of moves

Every step of a session changes the state by moves only, whatever host code it runs
(`moves_report`), apart from those that register members or end the exposer. `Session.Reaches` says
which states a session comes to by steps of some kind, so that what a single move keeps holds in all
of them.
-/

namespace ScriptBoundary

open Run

/-- The step opens members from outside a declaration. -/
def Step.IsRegister : Step → Prop
  | register .. => True
  | _ => False

/-- The step neither opens members nor ends the exposer. -/
def Step.IsOrdinary : Step → Prop
  | register .. | dispose => False
  | _ => True

/-- The step is handed no definition by which it makes a proxy. -/
def Step.WrapsOwn : Step → Prop
  | instantiate .. | createThrough .. => False
  | _ => True

/-- Native code that gives a new instance of a class. -/
def NativeCode.fresh (c : ClassRef) : NativeCode := .newInstance c fun t => .done (.ok (.object t))

namespace Step

/-- A step that is no registration is ordinary or ends the exposer. -/
theorem isOrdinary_or_eq_dispose {step : Step} (h : ¬ step.IsRegister) :
    step.IsOrdinary ∨ step = .dispose := by
  cases step with
  | register => exact absurd trivial h
  | dispose => exact .inr rfl
  | _ => exact .inl trivial

variable {catalog : Catalog} {r : Reentry} (hr : r.Moves catalog)

include hr

theorem moves_evalScript (v : ScriptCode) : (evalScript r v).Within catalog.OwnMoves :=
  .mapError (Catalog.moves_scriptCode hr v) _

theorem moves_evalObject (v : ScriptCode) : (evalObject r v).Within catalog.OwnMoves := by
  refine .bind (moves_evalScript hr v) fun value => ?_
  split
  · exact .pure _
  · exact .throw _

theorem moves_evalFunction (v : ScriptCode) : (evalFunction r v).Within catalog.OwnMoves := by
  refine .bind (moves_evalScript hr v) fun value => ?_
  split
  · exact .pure _
  · exact .throw _

theorem moves_evalArray (v : ScriptCode) : (evalArray r v).Within catalog.OwnMoves := by
  refine .bind (moves_evalScript hr v) fun value => ?_
  split
  · exact .pure _
  · exact .throw _

theorem moves_evalAccessor (v : Option ScriptCode) : (evalAccessor r v).Within catalog.OwnMoves := by
  cases v with
  | none => exact .pure _
  | some v => exact .bind (moves_evalFunction hr v) fun _ => .pure _

theorem moves_evalInstance (v : NativeCode) : (evalInstance catalog r v).Within catalog.OwnMoves := by
  refine .bind (Catalog.moves_nativeCode hr v) fun value => ?_
  split
  · exact .pure _
  · exact .throw _

theorem moves_evalCallable (v : NativeCode) : (evalCallable catalog r v).Within catalog.OwnMoves := by
  refine .bind (Catalog.moves_nativeCode hr v) fun value => ?_
  split
  · exact .pure _
  · exact .throw _

omit hr in
theorem within_findFactory {R : World → World → Prop} [IsPreorder World R] (name : String) :
    (findFactory name).Within R := by
  refine .bind (.read _) fun value => ?_
  split
  · exact .pure _
  · exact .throw _

omit hr in
theorem moves_withExposer {x : Run HostError Answer} (hx : x.Within catalog.OwnMoves) :
    (withExposer x).Within catalog.OwnMoves :=
  .bind (.mapError Catalog.within_requireAlive _) fun _ => hx

omit hr in
/-- A step that uses the exposer goes on while the exposer lives. -/
theorem withExposer_of_alive {w : World} (h : w.exposer.alive = true) (x : Run HostError Answer) :
    withExposer x w = x w :=
  bind_ok (mapError_some (Catalog.requireAlive_of_alive h) _) _

omit hr in
theorem evalInstance_fresh (c : ClassRef) (w : World) :
    evalInstance catalog r (.fresh c) w =
      some (.ok ⟨w.instances.size + 1, c⟩, { w with instances := w.instances.push {} }) := rfl

omit hr in
theorem moves_orExhausted {α : Type} (a : Option α) : (orExhausted a).Within catalog.OwnMoves := by
  cases a with
  | none => exact .exhausted
  | some a => exact .pure a

omit hr in
theorem moves_resolve (c : ClassRef) : (catalog.resolve c).Within catalog.OwnMoves :=
  .bind (.read _) fun _ => .ofExcept _

omit hr in
theorem moves_publish {ε : Type} (name : String) (value : ScriptValue) :
    (Run.publish name value : Run ε Unit).Within catalog.OwnMoves :=
  .change fun w => Catalog.ownMoves_of_alters (.define w.globals name (.data value))

omit hr in
theorem moves_exposeType (name : String) (c : ClassRef) :
    (catalog.exposeType name c).Within catalog.OwnMoves := by
  have hpublish : (do
      let d ← catalog.definitionOf c
      let f ← Run.onHeap (·.newFunction ⟨catalog.name c, .construct d⟩)
      Run.publish name (.function f) : Run Error Unit).Within catalog.OwnMoves :=
    .bind (catalog.moves_definitionOf c) fun d =>
      .bind (Catalog.moves_onHeap fun _ => .newFunction fun _ h => by cases h) fun f =>
        moves_publish name (.function f)
  unfold Catalog.exposeType
  dsimp only
  split
  · exact .bind (.throw _) fun _ => hpublish
  · exact hpublish

omit hr in
theorem moves_exposeInterface (c : ClassRef) :
    (catalog.exposeInterface c).Within catalog.OwnMoves := by
  have hdefine : (do return ⟨c, ← catalog.definitionOf c⟩ : Run Error Factory).Within
      catalog.OwnMoves := .bind (catalog.moves_definitionOf c) fun _ => .pure _
  unfold Catalog.exposeInterface
  dsimp only
  split
  · exact .bind (.throw _) fun _ => hdefine
  · exact hdefine

omit hr in
theorem moves_newProxy {ε : Type} (d : Definition) (target : Instance) :
    (Run.onHeap (·.newProxy d target) : Run ε ObjectId).Within catalog.Moves :=
  .onHeap fun _ => (Catalog.Move.proxy d target).moves

omit hr in
theorem moves_createThrough (factory : Factory) (target : Instance) :
    (catalog.createThrough factory target).Within catalog.Moves := by
  refine .bind Catalog.within_requireAlive fun _ => ?_
  split
  · exact .bind (moves_newProxy _ target) fun _ => .pure _
  · exact .throw _

/-- An ordinary step that is handed no definition for its proxy makes proxies by own definitions. -/
theorem ownMoves_perform (step : Step) (hstep : step.IsOrdinary) (hown : step.WrapsOwn) :
    (step.perform catalog r).Within catalog.OwnMoves := by
  cases step with
  | script v => exact .bind (moves_evalScript hr v) fun _ => .pure _
  | native v => exact .bind (Catalog.moves_nativeCode hr v) fun _ => .pure _
  | evaluate args v =>
    exact .bind (.mapM fun a _ => Catalog.moves_nativeCode hr a) fun _ =>
      .bind (Catalog.moves_nativeCode hr _) fun _ => .pure _
  | toScript v =>
    exact moves_withExposer (.bind (Catalog.moves_nativeCode hr v) fun v =>
      .bind (.mapError (catalog.moves_toScript v) _) fun _ => .pure _)
  | toNative type v =>
    exact moves_withExposer (.bind (moves_evalScript hr v) fun v =>
      .bind (.mapError (Catalog.moves_toNative hr type v) _) fun _ => .pure _)
  | unwrap type v =>
    exact moves_withExposer (.bind (moves_evalScript hr v) fun v =>
      .bind (.mapError (Catalog.moves_toNative hr type v) _) fun _ => .pure _)
  | wrap type v =>
    exact moves_withExposer (.bind (Catalog.moves_nativeCode hr v) fun v =>
      .bind (.mapError (.bind (.ofExcept _) fun _ => catalog.moves_toScriptAs type v) _)
        fun _ => .pure _)
  | roundTrip type v =>
    exact moves_withExposer (.bind (Catalog.moves_nativeCode hr v) fun v =>
      .bind (.mapError (catalog.moves_toScript v) _) fun s =>
        .bind (.mapError (Catalog.moves_toNative hr type s) _) fun _ => .pure _)
  | scriptView v =>
    exact .bind (moves_evalScript hr v) fun _ => .bind (.ofHeap _) fun _ =>
      .bind (moves_orExhausted _) fun _ => .pure _
  | nativeView v =>
    exact .bind (Catalog.moves_nativeCode hr v) fun _ => .bind (.ofHeap _) fun _ =>
      .bind (moves_orExhausted _) fun _ => .pure _
  | sameScript a b =>
    exact .bind (moves_evalScript hr a) fun _ => .bind (moves_evalScript hr b) fun _ => .pure _
  | sameNative a b =>
    exact .bind (Catalog.moves_nativeCode hr a) fun _ =>
      .bind (Catalog.moves_nativeCode hr b) fun _ => .pure _
  | instanceState v =>
    exact .bind (moves_evalInstance hr v) fun _ => .bind (.read _) fun _ => .pure _
  | register | dispose => exact hstep.elim
  | members c => exact moves_withExposer (.bind (.mapError (moves_resolve c) _) fun _ => .pure _)
  | definition c find =>
    exact moves_withExposer (.bind (.mapError (catalog.moves_definitionOf c) _) fun _ => .pure _)
  | cached c => exact moves_withExposer (.bind (.read _) fun _ => .pure _)
  | counts => exact moves_withExposer (.bind (.read _) fun _ => .pure _)
  | settings => exact moves_withExposer (.bind (.read _) fun _ => .pure _)
  | create v =>
    exact moves_withExposer (.bind (moves_evalInstance hr v) fun target =>
      .bind (.mapError (catalog.moves_wrapInstance target) _) fun _ => .pure _)
  | instantiate | createThrough => exact hown.elim
  | exposeInstance name v =>
    exact moves_withExposer (.bind (moves_evalInstance hr v) fun target =>
      .bind (.mapError (.bind (catalog.moves_wrapInstance target) fun s => moves_publish name s) _)
        fun _ => .pure _)
  | exposeType name c =>
    exact moves_withExposer (.bind (.mapError (moves_exposeType name c) _) fun _ => .pure _)
  | exposeFunction name v =>
    exact moves_withExposer (.bind (moves_evalCallable hr v) fun c =>
      .bind (.mapError (.bind (.ofExcept _) fun _ => .bind (catalog.moves_faceOf c) fun _ =>
        moves_publish name _) _) fun _ => .pure _)
  | exposeInterface c =>
    exact moves_withExposer (.bind (.mapError (moves_exposeInterface c) _) fun _ => .pure _)
  | globals => exact .bind (.read _) fun _ => .pure _
  | global name => exact .bind (Catalog.moves_global? hr name) fun _ => .pure _
  | setGlobal name v =>
    exact .bind (moves_evalScript hr v) fun _ => .bind (moves_publish name _) fun _ => .pure _
  | newHeir parent className =>
    exact .bind (moves_evalObject hr parent) fun _ =>
      .bind (Catalog.moves_onHeap fun _ => .newObject rfl rfl) fun _ => .pure _
  | prototype o => exact .bind (moves_evalObject hr o) fun _ => .bind (.ofHeap _) fun _ => .pure _
  | get o key =>
    exact .bind (moves_evalObject hr o) fun _ =>
      .bind (.mapError (Catalog.moves_get hr _ key) _) fun _ => .pure _
  | set o key v =>
    exact .bind (moves_evalObject hr o) fun _ => .bind (moves_evalScript hr v) fun _ =>
      .bind (.mapError (Catalog.moves_set hr _ key _) _) fun _ => .pure _
  | insert o key v =>
    exact .bind (moves_evalObject hr o) fun _ => .bind (moves_evalScript hr v) fun _ =>
      .bind (catalog.moves_define _ key _) fun _ => .pure _
  | define getter setter o key =>
    exact .bind (moves_evalAccessor hr getter) fun _ =>
      .bind (moves_evalAccessor hr setter) fun _ => .bind (moves_evalObject hr o) fun _ =>
        .bind (catalog.moves_define _ key _) fun _ => .pure _
  | has o key => exact .bind (moves_evalObject hr o) fun _ => .bind (.ofHeap _) fun _ => .pure _
  | own o key => exact .bind (moves_evalObject hr o) fun _ => .bind (.ofHeap _) fun _ => .pure _
  | lookup o key => exact .bind (moves_evalObject hr o) fun _ => .bind (.ofHeap _) fun _ => .pure _
  | keys o => exact .bind (moves_evalObject hr o) fun _ => .bind (.ofHeap _) fun _ => .pure _
  | entries o =>
    exact .bind (moves_evalObject hr o) fun _ =>
      .bind (.mapError (Catalog.moves_entries hr _) _) fun _ => .pure _
  | callMethod o key args =>
    exact .bind (moves_evalObject hr o) fun _ => .bind (.mapM fun a _ => moves_evalScript hr a)
      fun _ => .bind (.mapError (Catalog.moves_callMethod hr _ key _) _) fun _ => .pure _
  | call this f args =>
    exact .bind (moves_evalScript hr this) fun _ => .bind (moves_evalFunction hr f) fun _ =>
      .bind (.mapM fun a _ => moves_evalScript hr a) fun _ =>
        .bind (.mapError (hr.callFunction _ _ _) _) fun _ => .pure _
  | push a v =>
    exact .bind (moves_evalArray hr a) fun _ => .bind (moves_evalScript hr v) fun _ =>
      .bind (Catalog.moves_onHeap fun _ => .push _ _) fun _ => .pure _
  | item a place => exact .bind (moves_evalArray hr a) fun _ => .bind (.ofHeap _) fun _ => .pure _
  | bind f shape =>
    exact moves_withExposer (.bind (moves_evalFunction hr f) fun _ =>
      .bind (catalog.moves_bind _ shape) fun _ => .pure _)
  | invoke f args =>
    exact .bind (moves_evalCallable hr f) fun _ =>
      .bind (.mapM fun a _ => Catalog.moves_nativeCode hr a) fun _ =>
        .bind (hr.invoke _ _) fun _ => .pure _
  | keepFunction f =>
    exact .bind (moves_evalFunction hr f) fun _ => .bind (.read _) fun kept =>
      .bind (.change fun w => (Catalog.Move.outer _ kept.1).own rfl rfl) fun _ => .pure _
  | keptFunction number => exact .bind (.read _) fun _ => .pure _
  | keptCount => exact .bind (.read _) fun _ => .pure _

/-- An ordinary step moves. -/
theorem moves_perform (step : Step) (hstep : step.IsOrdinary) :
    (step.perform catalog r).Within catalog.Moves := by
  cases step with
  | instantiate c v =>
    exact .bind (.mapError Catalog.within_requireAlive _) fun _ =>
      .bind (moves_evalInstance hr v).moves fun target =>
        .bind (.mapError (catalog.moves_definitionOf c).moves _) fun d =>
          .bind (.bind (moves_newProxy d target) fun _ => .pure _) fun _ => .pure _
  | createThrough factory v =>
    exact .bind (within_findFactory factory) fun factory =>
      .bind (moves_evalInstance hr v).moves fun target =>
        .bind (.mapError (moves_createThrough factory target) _) fun _ => .pure _
  | _ => exact (ownMoves_perform hr _ hstep trivial).moves

end Step

namespace Session

/-- The states that a session comes to by steps of some kind, each with an allowance of its own. -/
inductive Reaches (catalog : Catalog) (kind : Step → Prop) (start : World) : World → Prop
  | start : Reaches catalog kind start start
  | step {w : World} {allowance : Nat} {name : Option String} {step : Step} {report : Report}
      (before : Reaches catalog kind start w) (ofKind : kind step)
      (done : Session.report catalog allowance name step w = some report) :
      Reaches catalog kind start report.world

variable {catalog : Catalog} {allowance : Nat} {name : Option String} {step : Step} {w : World}
  {rep : Report}

/-- A step begins with an empty journal, and what it notes is its report. -/
theorem report_cases (h : report catalog allowance name step w = some rep) :
    perform catalog allowance name step { w with journal := [] } = some (rep.outcome, rep.world) ∧
      rep.calls = rep.world.journal := by
  unfold report at h
  cases hperform : perform catalog allowance name step { w with journal := [] } with
  | none =>
    rw [hperform] at h
    cases h
  | some p =>
    rw [hperform] at h
    cases h
    exact ⟨rfl, rfl⟩

/-- An ordinary step moves from the state with an empty journal. -/
theorem moves_report (hstep : step.IsOrdinary)
    (h : report catalog allowance name step w = some rep) :
    catalog.Moves { w with journal := [] } rep.world := by
  have hperform : (perform catalog allowance name step).Within catalog.Moves := by
    refine .bind (Step.moves_perform (catalog.moves_reentry allowance) step hstep) fun answer => ?_
    split
    · exact .pure _
    · exact .bind (.change fun w => (Catalog.Move.outer _ w.register).moves) fun _ => .pure _
  exact hperform (report_cases h).1

/-- The step that ends the exposer does nothing else, but for a variable. -/
theorem report_dispose (h : report catalog allowance name .dispose w = some rep) :
    rep.calls = [] ∧ rep.world = { w with
      journal := [], named := rep.world.named, exposer := { w.exposer with alive := false } } := by
  cases name with
  | none =>
    cases h
    exact ⟨rfl, rfl⟩
  | some name =>
    cases h
    exact ⟨rfl, rfl⟩

/-- The report of a step that succeeds; its answer may go to a variable. -/
theorem report_of_perform (name : Option String) {answer : Answer} {w' : World}
    (h : step.perform catalog (catalog.reentry allowance) { w with journal := [] } =
      some (.ok answer, w')) :
    ∃ rep, report catalog allowance name step w = some rep ∧
      rep.world = name.elim w' fun name =>
        { w' with named := Keyed.put name answer.toVariable w'.named } := by
  have hdone : perform catalog allowance name step { w with journal := [] } = _ := bind_ok h _
  unfold report
  rw [hdone]
  cases name with
  | none => exact ⟨_, rfl, rfl⟩
  | some name => exact ⟨_, rfl, rfl⟩

/-- A new instance of any class can be wrapped by any definition that is kept. -/
theorem report_instantiate {c : ClassRef} {d : Definition} (halive : w.exposer.alive = true)
    (hkept : w.exposer.definition? (catalog.identity c) = some d) (runtimeClass : ClassRef) :
    let target : Instance := ⟨w.instances.size + 1, runtimeClass⟩
    ∃ rep, report catalog 0 none (.instantiate c (.fresh runtimeClass)) w = some rep ∧
      rep.world = { w with
        journal := [], instances := w.instances.push {},
        heap := (w.heap.newProxy d target).1 } := by
  intro target
  let begun : World := { w with journal := [] }
  let made : World := { begun with instances := w.instances.push {} }
  have hperform : (Step.instantiate c (.fresh runtimeClass)).perform catalog (catalog.reentry 0)
      begun = some (.ok (.script (.object (w.heap.newProxy d target).2)),
        { made with heap := (w.heap.newProxy d target).1 }) := by
    have hbuild : catalog.definitionOf c made = some (.ok d, made) := Catalog.build_of_kept hkept
    rw [Step.perform, Step.withExposer_of_alive (w := begun) halive]
    exact (bind_ok (Step.evalInstance_fresh runtimeClass begun) _).trans
      (bind_ok (mapError_some hbuild _) _)
  exact report_of_perform none hperform

end Session

end ScriptBoundary
