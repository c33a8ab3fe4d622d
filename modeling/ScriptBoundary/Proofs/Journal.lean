import ScriptBoundary.Proofs.Receivers

/-!
# The journal is never read

Calls that reach host code are noted in the journal, and nothing looks at what was noted: whatever
stands in the journal when a run begins, the run comes to the same outcome, and to the same state
with the same notes put behind those that were there (`Run.Blind`). So two runs whose states differ
in the journal only can be told apart by the journal only, at every depth of calls within calls
(`Catalog.blind_reentry`).
-/

namespace ScriptBoundary

open Run

/-- The state with notes before those that it has. -/
def World.after (before : List JournalEntry) (w : World) : World :=
  { w with journal := before ++ w.journal }

/-- Notes before no notes are the notes. -/
theorem World.after_cleared (w : World) : ({ w with journal := [] } : World).after w.journal = w :=
  congrArg (fun journal => { w with journal }) (List.append_nil w.journal)

namespace Run

variable {ε ε' α β : Type}

/-- Whatever was noted before, the computation comes to the same, behind what was noted. -/
def Blind (x : Run ε α) : Prop :=
  ∀ (before : List JournalEntry) (w : World),
    x (w.after before) = (x w).map (Prod.map id (World.after before))

namespace Blind

theorem pure (a : α) : Blind (Pure.pure a : Run ε α) := fun _ _ => rfl

theorem throw (e : ε) : Blind (MonadExcept.throw e : Run ε α) := fun _ _ => rfl

theorem exhausted : Blind (Run.exhausted : Run ε α) := fun _ _ => rfl

theorem ofExcept (x : Except ε α) : Blind (Run.ofExcept x) := fun _ _ => rfl

theorem ofConversion (x : Except ConversionError α) : Blind (Run.ofConversion x) := ofExcept _

/-- Anything but the journal may be read. -/
theorem read {f : World → α} (h : ∀ w before, f (World.after before w) = f w) :
    Blind (Run.read f : Run ε α) := by
  intro before w
  rw [read_apply, read_apply, h w before]
  rfl

theorem ofHeap (f : Heap → α) : Blind (Run.ofHeap f : Run ε α) := read fun _ _ => rfl

/-- A change may leave the journal alone or add to its end. -/
theorem change {f : World → World} (h : ∀ w before, f (World.after before w) = (f w).after before) :
    Blind (Run.change f : Run ε Unit) := by
  intro before w
  show some (Except.ok (), f (w.after before)) = _
  rw [h w before]
  rfl

theorem onHeap (f : Heap → Heap × α) : Blind (Run.onHeap f : Run ε α) := fun _ _ => rfl

theorem onExposer (f : Exposer → Exposer) : Blind (Run.onExposer f : Run ε Unit) :=
  change fun _ _ => rfl

/-- A note goes behind all that was noted. -/
theorem record (call : CallRecord) : Blind (Run.record call : Run ε Unit) :=
  change fun w before =>
    congrArg (fun journal => { w with journal }) (List.append_assoc before w.journal _)

theorem newInstance (c : ClassRef) : Blind (Run.newInstance c : Run ε Instance) := fun _ _ => rfl

theorem newCallable (shape : Shape) (body : CallableBody) :
    Blind (Run.newCallable shape body : Run ε Callable) := fun _ _ => rfl

theorem attempt {x : Run ε α} (hx : Blind x) : Blind (x.attempt : Run ε' (Except ε α)) := by
  intro before w
  show (x (w.after before)).bind _ = ((x w).bind _).map _
  rw [hx before w]
  cases x w <;> rfl

theorem mapError {x : Run ε α} (hx : Blind x) (f : ε → ε') : Blind (x.mapError f) := by
  intro before w
  show (x (w.after before)).bind _ = ((x w).bind _).map _
  rw [hx before w]
  cases x w <;> rfl

theorem bind {x : Run ε α} {f : α → Run ε β} (hx : Blind x) (hf : ∀ a, Blind (f a)) :
    Blind (x >>= f) := by
  intro before w
  show (x (w.after before)).bind _ = ((x w).bind _).map _
  rw [hx before w]
  rcases x w with _ | ⟨_ | a, w'⟩
  · rfl
  · rfl
  · exact hf a before w'

theorem mapM {x : α → Run ε β} {l : List α} (h : ∀ a ∈ l, Blind (x a)) : Blind (l.mapM x) := by
  induction l with
  | nil => exact pure []
  | cons a l ih =>
    rw [List.mapM_cons]
    refine bind (h a List.mem_cons_self) fun b => bind ?_ fun bs => pure (b :: bs)
    exact ih fun c hc => h c (List.mem_cons_of_mem _ hc)

theorem forM {x : α → Run ε Unit} {l : List α} (h : ∀ a ∈ l, Blind (x a)) : Blind (l.forM x) := by
  induction l with
  | nil => exact pure ()
  | cons a l ih =>
    exact bind (h a List.mem_cons_self) fun _ => ih fun b hb => h b (List.mem_cons_of_mem _ hb)

theorem requireAlive : Blind Run.requireAlive := by
  refine bind (read fun _ _ => rfl) fun alive => ?_
  split
  · exact pure _
  · exact throw _

end Blind

end Run

/-- The next level of calls does not read the journal. -/
structure Reentry.Blind (r : Reentry) : Prop where
  callFunction : ∀ f this args, (r.callFunction f this args).Blind
  invoke : ∀ c args, (r.invoke c args).Blind
  toNative : ∀ type value, (r.toNative type value).Blind

/-! ## To scripts -/

mutual

theorem blind_jsonToScript : (tree : Json) → tree.toScript.Blind
  | .null | .bool _ | .number _ | .string _ => .pure _
  | .array items => .bind (blind_itemsToScript items) fun _ => .bind (.onHeap _) fun _ => .pure _
  | .object fields => .bind (.onHeap _) fun o =>
      .bind (blind_fieldsToScript o fields) fun _ => .pure _

theorem blind_itemsToScript : (items : List Json) → (itemsToScript items).Blind
  | [] => .pure _
  | item :: rest => .bind (blind_jsonToScript item) fun _ =>
      .bind (blind_itemsToScript rest) fun _ => .pure _

theorem blind_fieldsToScript (o : ObjectId) :
    (fields : List (String × Json)) → (fieldsToScript o fields).Blind
  | [] => .pure _
  | (_, value) :: rest => .bind (blind_jsonToScript value) fun _ =>
      .bind (.onHeap _) fun _ => blind_fieldsToScript o rest

end

theorem blind_jsonTextToScript (text : String) : (jsonTextToScript text).Blind := by
  unfold jsonTextToScript
  split
  · exact blind_jsonToScript _
  · exact .throw _

theorem blind_textsToScript (texts : List (Option String)) : (textsToScript texts).Blind := by
  unfold textsToScript
  split
  · exact .pure _
  · exact .bind (.onHeap _) fun _ => .pure _

namespace Catalog

variable (catalog : Catalog)

/-! ## Definitions -/

theorem blind_resolve (c : ClassRef) : (catalog.resolve c).Blind :=
  .bind (.read fun _ _ => rfl) fun _ => .ofExcept _

theorem blind_kept? {ε : Type} (c : ClassRef) :
    (catalog.kept? c : Run ε (Option Definition)).Blind := .read fun _ _ => rfl

theorem blind_build (n : Nat) (underWay : List TypeId) (c : ClassRef) :
    (catalog.build n underWay c).Blind := by
  induction n generalizing underWay c with
  | zero => exact .exhausted
  | succ n ih =>
    refine .bind (catalog.blind_kept? c) fun found => ?_
    split
    · exact .pure _
    refine .bind (catalog.blind_resolve c) fun members => .bind (.ofExcept _) fun planned => ?_
    obtain ⟨plans, constructors, mentioned⟩ := planned
    refine .bind (.read fun _ _ => rfl) fun settings => ?_
    have hcomplete : (catalog.complete c settings plans constructors).Blind :=
      .bind (.onHeap _) fun _ => .bind (.onExposer _) fun _ =>
        .bind (catalog.blind_kept? c) fun _ => .pure _
    -- The classes that are mentioned are built first, with one nested build less.
    dsimp only
    split
    · refine .bind (.forM fun other _ => ?_) fun _ => hcomplete
      split
      · exact .pure _
      · refine .bind (catalog.blind_kept? other) fun kept => ?_
        split
        · exact .bind (ih _ other) fun _ => .pure _
        · exact .pure _
    · exact hcomplete

theorem blind_wrapInstance (target : Instance) : (catalog.wrapInstance target).Blind :=
  .bind (catalog.blind_build _ _ _) fun _ => .bind (.onHeap _) fun _ => .pure _

/-! ## To scripts -/

mutual

theorem blind_toScript : (v : NativeValue) → (catalog.toScript v).Blind
  | .null | .bool _ | .int _ _ | .float _ _ | .char _ | .datetime _ | .string _ | .script _ =>
    .pure _
  | .enumeration _ _ => .ofExcept _
  | .array items | .sequence items => .bind (blind_allToScript items) fun _ =>
      .bind (.onHeap _) fun _ => .pure _
  | .dictionary entries => .bind (.onHeap _) fun o =>
      .bind (blind_entriesToScript o entries) fun _ => .pure _
  | .multimap _ => .bind (.onHeap _) fun _ =>
      .bind (.forM fun entry _ => .bind (blind_textsToScript entry.2) fun _ => .onHeap _)
        fun _ => .pure _
  | .callable _ => .bind (.onHeap _) fun _ => .pure _
  | .json text => blind_jsonTextToScript text
  | .object target => catalog.blind_wrapInstance target

theorem blind_allToScript : (items : List NativeValue) → (catalog.allToScript items).Blind
  | [] => .pure _
  | item :: rest => .bind (blind_toScript item) fun _ =>
      .bind (blind_allToScript rest) fun _ => .pure _

theorem blind_entriesToScript (o : ObjectId) :
    (entries : List (String × NativeValue)) → (catalog.entriesToScript o entries).Blind
  | [] => .pure _
  | (_, value) :: rest => .bind (blind_toScript value) fun _ =>
      .bind (.onHeap _) fun _ => blind_entriesToScript o rest

end

theorem blind_toScriptAs (type : NativeType) (v : NativeValue) :
    (catalog.toScriptAs type v).Blind :=
  .bind (.ofExcept _) fun v => catalog.blind_toScript v

/-! ## Callbacks -/

theorem blind_bind {ε : Type} (f : FunctionId) (shape : Shape) :
    (catalog.bind f shape : Run ε Callable).Blind := by
  refine .bind (.read fun _ _ => rfl) fun bindings => ?_
  split
  · exact .pure _
  · refine .bind (.read fun _ _ => rfl) fun added => ?_
    exact .bind (.newCallable _ _) fun wrapper => .bind (.onExposer _) fun _ => .pure _

theorem blind_callableFor {ε : Type} (f : FunctionId) (shape : Shape) :
    (catalog.callableFor f shape : Run ε Callable).Blind := by
  refine .bind (.ofHeap _) fun function => ?_
  split
  · split
    · exact .pure _
    · exact catalog.blind_bind f shape
  · exact catalog.blind_bind f shape

end Catalog

namespace Reentry.Blind

variable {r : Reentry} (hr : r.Blind)

include hr

/-! ## Properties -/

theorem get (o : ObjectId) (key : String) : (r.get o key).Blind := by
  refine .bind (.ofHeap _) fun property => ?_
  split
  · exact .pure _
  · exact hr.callFunction _ _ _
  · exact .pure _
  · exact .pure _

theorem set (o : ObjectId) (key : String) (value : ScriptValue) : (r.set o key value).Blind := by
  refine .bind (.ofHeap _) fun property => ?_
  split
  · exact .bind (hr.callFunction _ _ _) fun _ => .pure _
  · exact .bind (.ofHeap _) fun _ => .throw _
  · exact .onHeap _
  · exact .onHeap _

theorem entries (o : ObjectId) : (r.entries o).Blind :=
  .bind (.ofHeap _) fun _ => .mapM fun key _ => .bind (hr.get o key) fun _ => .pure _

theorem callMethod (o : ObjectId) (key : String) (args : List ScriptValue) :
    (r.callMethod o key args).Blind := by
  refine .bind (hr.get o key) fun value => ?_
  split
  · exact hr.callFunction _ _ _
  · exact .bind (.ofHeap _) fun _ => .throw _

theorem global? {ε : Type} (name : String) :
    (r.global? name : Run ε (Option ScriptValue)).Blind := by
  refine .bind (.read fun _ _ => rfl) fun globals => .bind (.ofHeap _) fun property => ?_
  split
  · exact .pure _
  · refine .bind (.attempt (hr.get globals name)) fun outcome => ?_
    split
    · exact .pure _
    · exact .pure _

/-! ## Host code -/

theorem scriptCode (code : ScriptCode) : (code.run r).Blind := by
  -- Each request is blind, and by induction so is the code that goes on with the answer.
  induction code with
  | done result => exact .ofExcept result
  | newArray items next ih => exact .bind (.onHeap _) ih
  | newObject next ih => exact .bind (.onHeap _) ih
  | newFunction name body next _ ih => exact .bind (.onHeap _) ih
  | readVariable name next ih => exact .bind (.read fun _ _ => rfl) ih
  | readGlobal name next ih => exact .bind (hr.global? name) fun _ => ih _
  | define o key property next ih => exact .bind (.onHeap _) fun _ => ih
  | get o key next ih => exact .bind (.attempt (hr.get o key)) ih
  | set o key value next ih => exact .bind (.attempt (hr.set o key value)) ih
  | callMethod o key args next ih => exact .bind (.attempt (hr.callMethod o key args)) ih
  | call f this args next ih => exact .bind (.attempt (hr.callFunction f this args)) ih

theorem nativeCode (code : NativeCode) : (code.run r).Blind := by
  induction code with
  | done result => exact .ofExcept result
  | script code next ih => exact .bind (.attempt (hr.scriptCode code)) ih
  | readVariable name next ih => exact .bind (.read fun _ _ => rfl) ih
  | newCallable shape body next _ ih => exact .bind (.newCallable _ _) ih
  | newInstance c next ih => exact .bind (.newInstance c) ih
  | field target name next ih => exact .bind (.read fun _ _ => rfl) ih
  | setField target name value next ih => exact .bind (.change fun _ _ => rfl) fun _ => ih
  | handlers target next ih => exact .bind (.read fun _ _ => rfl) ih
  | setHandlers target kept next ih => exact .bind (.change fun _ _ => rfl) fun _ => ih
  | invoke c args next ih => exact .bind (.attempt (hr.invoke c args)) ih

theorem runConstructor (c made : ClassRef) (code : MemberCode) (args : List NativeValue) :
    (r.runConstructor c made code args).Blind :=
  .bind (.record _) fun _ => .bind (.newInstance made) fun _ =>
    .bind (hr.nativeCode _) fun _ => .pure _

/-! ## To native code -/

theorem toJson (n : Nat) (value : ScriptValue) : (r.toJson n value).Blind := by
  induction n generalizing value with
  | zero => exact .exhausted
  | succ n ih =>
    cases value with
    | array a =>
      exact .bind (.ofHeap _) fun _ => .bind (.mapM fun item _ => ih item) fun _ => .pure _
    | object o =>
      refine .bind (.mapError (hr.entries o) _) fun entries => ?_
      refine .bind (.mapM fun entry _ => ?_) fun _ => .pure _
      exact .bind (ih _) fun _ => .pure _
    | _ => exact .pure _

theorem jsonText (value : ScriptValue) : (r.jsonText value).Blind := by
  refine .bind (hr.toJson _ _) fun tree => ?_
  split
  · exact .pure _
  · exact .throw _

theorem textEntries (o : ObjectId) : (r.textEntries o).Blind := by
  refine .bind (hr.entries o) fun entries => .bind (.mapM fun entry _ => ?_) fun _ => .pure _
  obtain ⟨key, value⟩ := entry
  cases value with
  | array a => exact .bind (.ofHeap _) fun _ => .pure _
  | _ => exact .pure _

theorem plainValue (o : ObjectId) (p : FillableProperty) : (r.plainValue o p).Blind := by
  refine .bind (hr.get _ _) fun value => ?_
  split
  · exact hr.get _ _
  · exact .pure _

end Reentry.Blind

namespace Catalog

variable {catalog : Catalog} {r : Reentry} (hr : r.Blind)

include hr

theorem blind_runImplementation (i : Implementation) (target : Instance) (args : List NativeValue) :
    (catalog.runImplementation r i target args).Blind := by
  unfold runImplementation
  split
  · exact .bind (.record _) fun _ => hr.nativeCode _
  · exact .throw _

theorem blind_anyToNative (n : Nat) (value : ScriptValue) :
    (catalog.anyToNative r n value).Blind := by
  induction n generalizing value with
  | zero => exact .exhausted
  | succ n ih =>
    cases value with
    | date millis => exact .bind (.ofExcept _) fun _ => .pure _
    | array a =>
      exact .bind (.ofHeap _) fun _ => .bind (.mapM fun item _ => ih item) fun _ => .pure _
    | object o =>
      refine .bind (.ofHeap _) fun object => ?_
      split
      · exact .pure _
      · refine .bind (hr.entries o) fun entries => .bind (.mapM fun entry _ => ?_) fun _ => .pure _
        exact .bind (ih _) fun _ => .pure _
    | function f => exact .bind (catalog.blind_callableFor _ _) fun _ => .pure _
    | _ => exact .pure _

theorem blind_fill (o : ObjectId) (target : Instance) (p : FillableProperty) :
    (catalog.fill r o target p).Blind := by
  have hset : ∀ value : NativeValue, ((catalog.runImplementation r p.setter target [value]).mapError
      (Error.ofHost p.member)).Blind := fun value => .mapError (blind_runImplementation hr _ _ _) _
  refine .bind (hr.plainValue o p) fun given => ?_
  dsimp only
  split
  · refine .bind (.pure _) fun value => ?_
    split
    · exact .pure _
    · exact .bind (hset _) fun _ => .pure _
  · refine .bind (.bind (hr.toNative _ _) fun _ => .pure _) fun value => ?_
    split
    · exact .pure _
    · exact .bind (hset _) fun _ => .pure _

theorem blind_constructFromPlain (o : ObjectId) (c : ClassRef) :
    (catalog.constructFromPlain r o c).Blind := by
  have hconstruct : ∀ k : ConstructorDecl, (do
      let target ← (r.runConstructor c (catalog.made c) k.code []).mapError fun e =>
        .construction (.failed (catalog.name c) e)
      let members ← catalog.resolve target.runtimeClass
      (catalog.fillables target.runtimeClass members).forM (catalog.fill r o target)
      return .object target : Run Error NativeValue).Blind := by
    intro k
    refine .bind (.mapError (hr.runConstructor c _ k.code []) _) fun target => ?_
    refine .bind (catalog.blind_resolve _) fun members => ?_
    exact .bind (.forM fun p _ => blind_fill hr o target p) fun _ => .pure _
  -- What follows the check for interfaces stands behind both of its outcomes.
  unfold constructFromPlain
  dsimp only
  split
  · refine .bind (.throw _) fun _ => ?_
    split
    · exact .throw _
    · exact hconstruct _
  · split
    · exact .throw _
    · exact hconstruct _

theorem blind_objectToNative (o : ObjectId) (c : ClassRef) :
    (catalog.objectToNative r o c).Blind := by
  refine .bind (.ofHeap _) fun object => ?_
  split
  · split
    · exact .pure _
    · exact .throw _
  · exact blind_constructFromPlain hr o c

/-- Converting to native does not read the journal. -/
theorem blind_toNative (type : NativeType) (value : ScriptValue) :
    (catalog.toNative r type value).Blind := by
  -- By induction on the size of the type, since the cases are told by type and value together.
  induction hn : sizeOf type using Nat.strongRecOn generalizing type value with
  | _ n ih =>
    subst hn
    unfold toNative
    split
    · exact .pure _
    · split
      · exact .pure _
      · exact .pure _
      · exact .bind (.ofExcept _) fun _ => .pure _
      · exact .bind (.ofExcept _) fun _ => .pure _
      · exact .pure _
      · exact .bind (.ofExcept _) fun _ => .pure _
      · exact .pure _
      · exact .bind (.ofExcept _) fun _ => .pure _
      · next element a _ =>
        refine .bind (.ofHeap _) fun items => .bind (.mapM fun item _ => ?_) fun _ => .pure _
        exact ih _ (by simp) element item rfl
      · exact .throw _
      · next element o _ =>
        refine .bind (hr.entries o) fun entries => .bind (.mapM fun entry _ => ?_) fun _ => .pure _
        exact .bind (ih _ (by simp) element entry.2 rfl) fun _ => .pure _
      · exact .bind (hr.textEntries _) fun _ => .pure _
      · exact .bind (catalog.blind_callableFor _ _) fun _ => .pure _
      · exact .bind (hr.jsonText _) fun _ => .pure _
      · exact blind_objectToNative hr _ _
      · exact blind_anyToNative hr _ _
      · exact .throw _

theorem blind_takeArguments (intakes : List Intake) (args : List ScriptValue) :
    (catalog.takeArguments r intakes args).Blind := by
  induction intakes generalizing args with
  | nil => exact .pure _
  | cons intake intakes ih =>
    cases intake with
    | converted type =>
      exact .bind (blind_toNative hr type _) fun _ => .bind (ih _) fun _ => .pure _
    | rest => exact .bind (ih _) fun _ => .pure _

omit hr in
theorem blind_giveResult (outcome : Outcome) (v : NativeValue) :
    (catalog.giveResult outcome v).Blind := by
  cases outcome with
  | discarded => exact .pure _
  | checked type => exact catalog.blind_toScriptAs type v

theorem blind_cross (a : Adapter) (args : List ScriptValue)
    {native : List NativeValue → Run Error NativeValue}
    (hnative : ∀ natives, (native natives).Blind) :
    (catalog.cross r a args native).Blind :=
  .bind (blind_takeArguments hr _ args) fun natives =>
    .bind (hnative natives) fun v => blind_giveResult _ v

theorem blind_runMember (plan : MemberPlan) (target : Instance) (natives : List NativeValue) :
    (catalog.runMember r plan target natives).Blind := by
  rw [runMember_eq]
  refine .bind (.ofExcept _) fun i => .bind (.ofExcept _) fun given => ?_
  exact .bind (.mapError (blind_runImplementation hr i target given) _) fun _ => .pure _

theorem blind_callMember (plan : MemberPlan) (this : ScriptValue) (args : List ScriptValue) :
    (catalog.callMember r plan this args).Blind := by
  have hreceiver : (receiver plan this).Blind := by
    intro before w
    rw [receiver_apply, receiver_apply]
    rfl
  rw [callMember_eq]
  exact .bind hreceiver fun target =>
    blind_cross hr _ args fun natives => blind_runMember hr plan target natives

theorem blind_construct (d : Definition) (args : List ScriptValue) :
    (catalog.construct r d args).Blind := by
  rw [construct_eq]
  split
  · exact .throw _
  · refine .mapError (blind_cross hr _ args fun natives => ?_) _
    exact .bind (.mapError (hr.runConstructor _ _ _ natives) _) fun _ => .pure _

theorem blind_callFace (c : Callable) (args : List ScriptValue) :
    (catalog.callFace r c args).Blind := by
  rw [callFace_eq]
  exact blind_cross hr _ args fun natives => .mapError (hr.invoke c natives) _

/-- Calling a function. -/
theorem blind_callFunction (f : FunctionId) (this : ScriptValue) (args : List ScriptValue) :
    (catalog.callFunction r f this args).Blind := by
  refine .bind (.ofHeap _) fun function => ?_
  split
  · exact .bind (.record _) fun _ => hr.scriptCode _
  · exact .bind .requireAlive fun _ => blind_callMember hr _ this args
  · exact .bind .requireAlive fun _ => blind_construct hr _ args
  · exact .bind .requireAlive fun _ => blind_callFace hr _ args

omit hr in
theorem blind_callbackArguments (params : List Param) (args : List NativeValue) :
    (catalog.callbackArguments params args).Blind := by
  induction params generalizing args with
  | nil => exact .pure _
  | cons param params ih =>
    cases param with
    | fixed name type =>
      unfold callbackArguments
      dsimp only
      split
      · exact .bind (catalog.blind_toScript _) fun _ => .bind (ih _) fun _ => .pure _
      · exact .bind (.pure _) fun _ => .bind (ih _) fun _ => .pure _
    | rest name => exact .bind (.ofExcept _) fun _ => .bind (ih _) fun _ => .pure _

theorem blind_callDelegate (shape : Shape) (number : Nat) (args : List NativeValue) :
    (catalog.callDelegate r shape number args).Blind := by
  refine .bind .requireAlive fun _ => .bind (.read fun _ _ => rfl) fun found => ?_
  split
  · exact .throw _
  · refine .bind (blind_callbackArguments _ args) fun values => ?_
    refine .bind (hr.callFunction _ _ _) fun result => ?_
    split
    · exact .pure _
    · exact blind_toNative hr _ result

/-- Calling a callable. -/
theorem blind_invoke (c : Callable) (args : List NativeValue) :
    (catalog.invoke r c args).Blind := by
  refine .bind (.read fun _ _ => rfl) fun body => ?_
  split
  · exact .bind (.record _) fun _ => hr.nativeCode _
  · exact .mapError (blind_callDelegate hr _ _ args) _

omit hr in
/-- No level of calls reads the journal. -/
theorem blind_reentry (catalog : Catalog) (n : Nat) : (catalog.reentry n).Blind := by
  induction n with
  | zero => exact ⟨fun _ _ _ => .exhausted, fun _ _ => .exhausted, fun _ _ => .exhausted⟩
  | succ n ih => exact ⟨blind_callFunction ih, blind_invoke ih, blind_toNative ih⟩

end Catalog

end ScriptBoundary
