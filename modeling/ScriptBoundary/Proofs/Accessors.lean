import ScriptBoundary.Proofs.Failures
import ScriptBoundary.Proofs.Showing
import ScriptBoundary.Proofs.Writings

/-!
# What code writes

A property may be an accessor, so reading or writing one may run a function, and script code may in
turn define, read and write properties of the same objects. What is written is therefore told along
the code that runs. `World.Gets` and `Operation.Does` tell it of reading and of the operations on an
object, and `ScriptCode.Writes` of script code, request by request; each of them takes what calls do
as given, and `Catalog.callWrites` ties calls to the code of functions, level by level.

Exactly the runs that come to an end are told (`ScriptCode.writes_iff`, `Catalog.tells_callWrites`),
and what is told is what happens to the heap (`ScriptCode.Writes.records`,
`Catalog.sound_callWrites`).
-/

namespace ScriptBoundary

open Run

/-! ## Writing a property -/

namespace Heap

/-- No accessor is found under a name. -/
def Free (h : Heap) (o : ObjectId) (key : String) : Prop :=
  ∀ getter setter, h.lookup? o key ≠ some (.accessor getter setter)

/-- There is no accessor, or one without a setter, or one with a setter. -/
theorem lookup?_cases (h : Heap) (o : ObjectId) (key : String) :
    h.Free o key ∨ (∃ getter, h.lookup? o key = some (.accessor getter none)) ∨
      ∃ getter f, h.lookup? o key = some (.accessor getter (some f)) := by
  cases hfound : h.lookup? o key with
  | none => exact .inl fun _ _ haccessor => by cases hfound.symm.trans haccessor
  | some property =>
    cases property with
    | data value => exact .inl fun _ _ haccessor => by cases hfound.symm.trans haccessor
    | accessor getter setter =>
      cases setter with
      | none => exact .inr (.inl ⟨getter, rfl⟩)
      | some f => exact .inr (.inr ⟨getter, f, rfl⟩)

end Heap

namespace Reentry

variable {r : Reentry} {w : World} {o : ObjectId} {key : String}

/-- A property that is found under no accessor is written on the object itself. -/
theorem set_of_free (hfree : w.heap.Free o key) (value : ScriptValue) :
    r.set o key value w = some (.ok (), { w with heap := w.heap.insert o key value }) := by
  rw [set, bind_ok (ofHeap_apply _ w)]
  cases hfound : w.heap.lookup? o key with
  | none => rfl
  | some property =>
    cases property with
    | data => rfl
    | accessor getter setter => exact absurd hfound (hfree getter setter)

end Reentry

/-! ## Operations -/

/-- What calls do: the function, the receiver, the arguments and the state, and then what the call
writes, its outcome, and the state in which it ends. -/
abbrev CallWrites : Type :=
  FunctionId → ScriptValue → List ScriptValue → World → List Writing → Except Error ScriptValue →
    World → Prop

/-- What reading a property writes, what it gives, and the state in which it ends. -/
inductive World.Gets (calls : CallWrites) (w : World) (o : ObjectId) (key : String) :
    List Writing → Except Error ScriptValue → World → Prop
  | data {value : ScriptValue} (found : w.heap.lookup? o key = some (.data value)) :
      Gets calls w o key [] (.ok value) w
  | getter {f : FunctionId} {setter : Option FunctionId} {ws : List Writing}
      {outcome : Except Error ScriptValue} {w' : World}
      (found : w.heap.lookup? o key = some (.accessor (some f) setter))
      (called : calls f (.object o) [] w ws outcome w') : Gets calls w o key ws outcome w'
  | noGetter {setter : Option FunctionId}
      (found : w.heap.lookup? o key = some (.accessor none setter)) :
      Gets calls w o key [] (.ok .undefined) w
  | absent (found : w.heap.lookup? o key = none) : Gets calls w o key [] (.ok .undefined) w

/-- What calling the method of an object writes, what it gives, and the state in which it ends. -/
inductive World.CallsMethod (calls : CallWrites) (w : World) (o : ObjectId) (key : String)
    (args : List ScriptValue) : List Writing → Except Error ScriptValue → World → Prop
  | failed {ws : List Writing} {e : Error} {w' : World}
      (gets : w.Gets calls o key ws (.error e) w') : CallsMethod calls w o key args ws (.error e) w'
  | noFunction {ws : List Writing} {value : ScriptValue} {w' : World}
      (gets : w.Gets calls o key ws (.ok value) w') (other : ∀ f, value ≠ .function f) :
      CallsMethod calls w o key args ws
        (.error (.script ((w'.heap.object o).className ++ "." ++ key ++
          " is not a function (got " ++ value.typeName ++ ")"))) w'
  | called {ws ws' : List Writing} {f : FunctionId} {outcome : Except Error ScriptValue}
      {w₁ w' : World} (gets : w.Gets calls o key ws (.ok (.function f)) w₁)
      (call : calls f (.object o) args w₁ ws' outcome w') :
      CallsMethod calls w o key args (ws ++ ws') outcome w'

/-- Something done to an object. -/
inductive Operation where
  | define (o : ObjectId) (key : String) (property : Property)
  | insert (o : ObjectId) (key : String) (value : ScriptValue)
  | set (o : ObjectId) (key : String) (value : ScriptValue)

/-- Does an operation. -/
def Operation.run (r : Reentry) : Operation → Run Error Unit
  | define o key property => Run.onHeap fun h => (h.define o key property, ())
  | insert o key value => Run.onHeap fun h => (h.insert o key value, ())
  | set o key value => r.set o key value

/-- What an operation writes, and how and in which state it ends. -/
inductive Operation.Does (calls : CallWrites) (w : World) :
    Operation → List Writing → Except Error Unit → World → Prop
  | define {o : ObjectId} {key : String} {property : Property} :
      Does calls w (.define o key property) (w.heap.writing o key property) (.ok ())
        { w with heap := w.heap.define o key property }
  | insert {o : ObjectId} {key : String} {value : ScriptValue} :
      Does calls w (.insert o key value) (w.heap.writing o key (.data value)) (.ok ())
        { w with heap := w.heap.define o key (.data value) }
  | set {o : ObjectId} {key : String} {value : ScriptValue} (free : w.heap.Free o key) :
      Does calls w (.set o key value) (w.heap.writing o key (.data value)) (.ok ())
        { w with heap := w.heap.define o key (.data value) }
  | readOnly {o : ObjectId} {key : String} {value : ScriptValue} {getter : Option FunctionId}
      (found : w.heap.lookup? o key = some (.accessor getter none)) :
      Does calls w (.set o key value) []
        (.error (.script ("property '" ++ key ++ "' of " ++ (w.heap.object o).className ++
          " is read-only"))) w
  | setter {o : ObjectId} {key : String} {value : ScriptValue} {getter : Option FunctionId}
      {f : FunctionId} {ws : List Writing} {outcome : Except Error ScriptValue} {w' : World}
      (found : w.heap.lookup? o key = some (.accessor getter (some f)))
      (called : calls f (.object o) [value] w ws outcome w') :
      Does calls w (.set o key value) ws (outcome.map fun _ => ()) w'

/-! ## Script code -/

/-- What script code writes, what it gives, and the state in which it ends. -/
inductive ScriptCode.Writes (calls : CallWrites) :
    ScriptCode → World → List Writing → Except Error ScriptValue → World → Prop
  | done {result : Except Error ScriptValue} {w : World} :
      Writes calls (.done result) w [] result w
  | newArray {items : List ScriptValue} {next : ArrayId → ScriptCode} {w w' : World}
      {ws : List Writing} {out : Except Error ScriptValue}
      (rest : Writes calls (next (w.heap.newArray items).2)
        { w with heap := (w.heap.newArray items).1 } ws out w') :
      Writes calls (.newArray items next) w ws out w'
  | newObject {next : ObjectId → ScriptCode} {w w' : World} {ws : List Writing}
      {out : Except Error ScriptValue}
      (rest : Writes calls (next (w.heap.newObject .plain).2)
        { w with heap := (w.heap.newObject .plain).1 } ws out w') :
      Writes calls (.newObject next) w ws out w'
  | newFunction {name : String} {body : ScriptValue → List ScriptValue → ScriptCode}
      {next : FunctionId → ScriptCode} {w w' : World} {ws : List Writing}
      {out : Except Error ScriptValue}
      (rest : Writes calls (next (w.heap.newFunction ⟨name, .hosted body⟩).2)
        { w with heap := (w.heap.newFunction ⟨name, .hosted body⟩).1 } ws out w') :
      Writes calls (.newFunction name body next) w ws out w'
  | readVariable {name : String} {next : ScriptValue → ScriptCode} {w w' : World}
      {ws : List Writing} {out : Except Error ScriptValue}
      (rest : Writes calls
        (next (((Keyed.get? name w.named).map Variable.asScript).getD .undefined)) w ws out w') :
      Writes calls (.readVariable name next) w ws out w'
  | noGlobal {name : String} {next : ScriptValue → ScriptCode} {w w' : World} {ws : List Writing}
      {out : Except Error ScriptValue} (found : w.heap.own? w.globals name = none)
      (rest : Writes calls (next .undefined) w ws out w') :
      Writes calls (.readGlobal name next) w ws out w'
  | readGlobal {name : String} {next : ScriptValue → ScriptCode} {w w₁ w' : World}
      {ws ws' : List Writing} {property : Property} {outcome out : Except Error ScriptValue}
      (found : w.heap.own? w.globals name = some property)
      (gets : w.Gets calls w.globals name ws outcome w₁)
      (rest : Writes calls (next (outcome.toOption.getD .undefined)) w₁ ws' out w') :
      Writes calls (.readGlobal name next) w (ws ++ ws') out w'
  | define {o : ObjectId} {key : String} {property : Property} {next : ScriptCode} {w w' : World}
      {ws : List Writing} {out : Except Error ScriptValue}
      (rest : Writes calls next { w with heap := w.heap.define o key property } ws out w') :
      Writes calls (.define o key property next) w (w.heap.writing o key property ++ ws) out w'
  | get {o : ObjectId} {key : String} {next : Except Error ScriptValue → ScriptCode}
      {w w₁ w' : World} {ws ws' : List Writing} {outcome out : Except Error ScriptValue}
      (gets : w.Gets calls o key ws outcome w₁) (rest : Writes calls (next outcome) w₁ ws' out w') :
      Writes calls (.get o key next) w (ws ++ ws') out w'
  | set {o : ObjectId} {key : String} {value : ScriptValue} {next : Except Error Unit → ScriptCode}
      {w w₁ w' : World} {ws ws' : List Writing} {outcome : Except Error Unit}
      {out : Except Error ScriptValue}
      (does : (Operation.set o key value).Does calls w ws outcome w₁)
      (rest : Writes calls (next outcome) w₁ ws' out w') :
      Writes calls (.set o key value next) w (ws ++ ws') out w'
  | callMethod {o : ObjectId} {key : String} {args : List ScriptValue}
      {next : Except Error ScriptValue → ScriptCode} {w w₁ w' : World} {ws ws' : List Writing}
      {outcome out : Except Error ScriptValue}
      (callsMethod : w.CallsMethod calls o key args ws outcome w₁)
      (rest : Writes calls (next outcome) w₁ ws' out w') :
      Writes calls (.callMethod o key args next) w (ws ++ ws') out w'
  | call {f : FunctionId} {this : ScriptValue} {args : List ScriptValue}
      {next : Except Error ScriptValue → ScriptCode} {w w₁ w' : World} {ws ws' : List Writing}
      {outcome out : Except Error ScriptValue} (called : calls f this args w ws outcome w₁)
      (rest : Writes calls (next outcome) w₁ ws' out w') :
      Writes calls (.call f this args next) w (ws ++ ws') out w'

/-- What calls do when so many more may nest: the code of a function writes what its requests do;
what native code writes is some sequence of definitions. -/
def Catalog.callWrites (catalog : Catalog) : Nat → CallWrites
  | 0 => fun _ _ _ _ _ _ _ => False
  | n + 1 => fun f this args w ws outcome w' =>
    match (w.heap.function f).body with
    | .hosted code => (code this args).Writes (catalog.callWrites n)
        (w.noting (.function (w.heap.function f).name this args)) ws outcome w'
    | _ => (catalog.reentry (n + 1)).callFunction f this args w = some (outcome, w') ∧
        w.heap.Records ws w'.heap

/-! ## Every run is told -/

/-- Exactly the calls that come to an end are told. -/
def CallWrites.Tells (calls : CallWrites) (r : Reentry) : Prop :=
  ∀ {f : FunctionId} {this : ScriptValue} {args : List ScriptValue} {w w' : World}
    {outcome : Except Error ScriptValue}, r.callFunction f this args w = some (outcome, w') ↔
      ∃ ws, calls f this args w ws outcome w'

/-- What calls write is what happens to the heap. -/
def CallWrites.Sound (calls : CallWrites) : Prop :=
  ∀ {f : FunctionId} {this : ScriptValue} {args : List ScriptValue} {w w' : World}
    {ws : List Writing} {outcome : Except Error ScriptValue},
      calls f this args w ws outcome w' → w.heap.Records ws w'.heap

section

variable {calls : CallWrites} {r : Reentry} {w w' : World} {o : ObjectId} {key : String}
  {ws : List Writing}

/-- Reading a property comes to the ends that are told. -/
theorem World.gets_iff (htells : calls.Tells r) {outcome : Except Error ScriptValue} :
    r.get o key w = some (outcome, w') ↔ ∃ ws, w.Gets calls o key ws outcome w' := by
  constructor
  · intro hrun
    cases hfound : w.heap.lookup? o key with
    | none =>
      rw [Reentry.get, bind_ok (ofHeap_apply _ w), hfound] at hrun
      cases hrun
      exact ⟨[], .absent hfound⟩
    | some property =>
      cases property with
      | data value =>
        rw [Reentry.get, bind_ok (ofHeap_apply _ w), hfound] at hrun
        cases hrun
        exact ⟨[], .data hfound⟩
      | accessor getter setter =>
        cases getter with
        | none =>
          rw [Catalog.get_of_no_getter hfound] at hrun
          cases hrun
          exact ⟨[], .noGetter hfound⟩
        | some f =>
          rw [Reentry.get_of_getter hfound] at hrun
          obtain ⟨ws, hcalled⟩ := htells.1 hrun
          exact ⟨ws, .getter hfound hcalled⟩
  · rintro ⟨ws, hgets⟩
    cases hgets with
    | data found | absent found =>
      rw [Reentry.get, bind_ok (ofHeap_apply _ w), found]
      rfl
    | getter found called => exact (Reentry.get_of_getter found).trans (htells.2 ⟨ws, called⟩)
    | noGetter found => exact Catalog.get_of_no_getter found r

/-- Calling a method comes to the ends that are told. -/
theorem World.callsMethod_iff (htells : calls.Tells r) {args : List ScriptValue}
    {outcome : Except Error ScriptValue} :
    r.callMethod o key args w = some (outcome, w') ↔
      ∃ ws, w.CallsMethod calls o key args ws outcome w' := by
  constructor
  · intro hrun
    rcases bind_cases hrun with ⟨e, hread, rfl⟩ | ⟨value, w₁, hread, hrest⟩
    · obtain ⟨ws, hgets⟩ := (gets_iff htells).1 hread
      exact ⟨ws, .failed hgets⟩
    · obtain ⟨ws, hgets⟩ := (gets_iff htells).1 hread
      cases value with
      | function f =>
        obtain ⟨ws', hcalled⟩ := htells.1 hrest
        exact ⟨ws ++ ws', .called hgets hcalled⟩
      | _ =>
        cases hrest
        exact ⟨ws, .noFunction hgets fun f h => by cases h⟩
  · rintro ⟨ws, hcalls⟩
    cases hcalls with
    | failed gets => exact bind_error ((gets_iff htells).2 ⟨_, gets⟩) _
    | @noFunction _ value _ gets other =>
      refine (bind_ok ((gets_iff htells).2 ⟨_, gets⟩) _).trans ?_
      cases value with
      | function f => exact absurd rfl (other f)
      | _ => rfl
    | called gets call =>
      exact (bind_ok ((gets_iff htells).2 ⟨_, gets⟩) _).trans (htells.2 ⟨_, call⟩)

/-- Operations come to the ends that are told. -/
theorem Operation.does_iff (op : Operation) (htells : calls.Tells r)
    {outcome : Except Error Unit} :
    op.run r w = some (outcome, w') ↔ ∃ ws, op.Does calls w ws outcome w' := by
  constructor
  · intro hrun
    cases op with
    | define =>
      cases hrun
      exact ⟨_, .define⟩
    | insert =>
      cases hrun
      exact ⟨_, .insert⟩
    | set o key value =>
      change r.set o key value w = _ at hrun
      rcases w.heap.lookup?_cases o key with hfree | ⟨getter, hfound⟩ | ⟨getter, f, hfound⟩
      · rw [Reentry.set_of_free hfree] at hrun
        cases hrun
        exact ⟨_, .set hfree⟩
      · rw [Catalog.set_of_no_setter hfound] at hrun
        cases hrun
        exact ⟨_, .readOnly hfound⟩
      · rw [Reentry.set_of_setter hfound] at hrun
        obtain ⟨called, hcalled, rfl⟩ := map_eq_some_iff.1 hrun
        obtain ⟨ws, hwrites⟩ := htells.1 hcalled
        exact ⟨ws, .setter hfound hwrites⟩
  · rintro ⟨ws, hdoes⟩
    cases hdoes with
    | define | insert => rfl
    | set free => exact Reentry.set_of_free free _
    | readOnly found => exact Catalog.set_of_no_setter found r _
    | setter found called =>
      have hcall := htells.2 ⟨ws, called⟩
      exact (Reentry.set_of_setter found _).trans (map_eq_some_iff.2 ⟨_, hcall, rfl⟩)

/-- A property that the global object has is read; undefined stands for a failure. -/
theorem Reentry.global?_iff {name : String} {property : Property}
    {value : Except Error (Option ScriptValue)}
    (hfound : w.heap.own? w.globals name = some property) :
    r.global? name w = some (value, w') ↔
      ∃ outcome, r.get w.globals name w = some (outcome, w') ∧ value = .ok outcome.toOption := by
  rw [global?, bind_ok (read_apply _ w), bind_ok (ofHeap_apply _ w), hfound]
  constructor
  · intro hrun
    obtain ⟨outcome, w₁, hread, hdone⟩ := attempt_bind_cases hrun
    cases outcome with
    | ok value =>
      cases hdone
      exact ⟨_, hread, rfl⟩
    | error e =>
      cases hdone
      exact ⟨_, hread, rfl⟩
  · rintro ⟨outcome, hread, rfl⟩
    refine (bind_ok (attempt_some hread) _).trans ?_
    cases outcome <;> rfl

/-- A property that the global object does not have is not read. -/
theorem Reentry.global?_of_absent {name : String} (hfound : w.heap.own? w.globals name = none) :
    (r.global? name : Run Error _) w = some (.ok none, w) := by
  rw [global?, bind_ok (read_apply _ w), bind_ok (ofHeap_apply _ w), hfound]
  rfl

/-- Of a run of script code it is told what it writes. -/
theorem ScriptCode.exists_writes (htells : calls.Tells r) {code : ScriptCode}
    {out : Except Error ScriptValue} (hrun : code.run r w = some (out, w')) :
    ∃ ws, code.Writes calls w ws out w' := by
  -- By induction on the tree of requests; what the calls do is told already.
  induction code generalizing w with
  | done result =>
    cases hrun
    exact ⟨[], .done⟩
  | newArray items next ih =>
    obtain ⟨ws, hrest⟩ := ih _ hrun
    exact ⟨ws, .newArray hrest⟩
  | newObject next ih =>
    obtain ⟨ws, hrest⟩ := ih _ hrun
    exact ⟨ws, .newObject hrest⟩
  | newFunction name body next _ ih =>
    obtain ⟨ws, hrest⟩ := ih _ hrun
    exact ⟨ws, .newFunction hrest⟩
  | readVariable name next ih =>
    obtain ⟨ws, hrest⟩ := ih _ hrun
    exact ⟨ws, .readVariable hrest⟩
  | readGlobal name next ih =>
    cases hfound : w.heap.own? w.globals name with
    | none =>
      rw [run, bind_ok (Reentry.global?_of_absent hfound)] at hrun
      obtain ⟨ws, hrest⟩ := ih _ hrun
      exact ⟨ws, .noGlobal hfound hrest⟩
    | some property =>
      rcases bind_cases hrun with ⟨e, hglobal, -⟩ | ⟨value, w₁, hglobal, hrest⟩
      · obtain ⟨outcome, -, hvalue⟩ := (Reentry.global?_iff hfound).1 hglobal
        cases hvalue
      · obtain ⟨outcome, hread, hvalue⟩ := (Reentry.global?_iff hfound).1 hglobal
        cases hvalue
        obtain ⟨ws, hgets⟩ := (World.gets_iff htells).1 hread
        obtain ⟨ws', hwrites⟩ := ih _ hrest
        exact ⟨ws ++ ws', .readGlobal hfound hgets hwrites⟩
  | define o key property next ih =>
    obtain ⟨ws, hrest⟩ := ih hrun
    exact ⟨_, .define hrest⟩
  | get o key next ih =>
    obtain ⟨outcome, w₁, hread, hrest⟩ := attempt_bind_cases hrun
    obtain ⟨ws, hgets⟩ := (World.gets_iff htells).1 hread
    obtain ⟨ws', hwrites⟩ := ih _ hrest
    exact ⟨ws ++ ws', .get hgets hwrites⟩
  | set o key value next ih =>
    obtain ⟨outcome, w₁, hset, hrest⟩ := attempt_bind_cases hrun
    obtain ⟨ws, hdoes⟩ := (Operation.does_iff (.set o key value) htells).1 hset
    obtain ⟨ws', hwrites⟩ := ih _ hrest
    exact ⟨ws ++ ws', .set hdoes hwrites⟩
  | callMethod o key args next ih =>
    obtain ⟨outcome, w₁, hcall, hrest⟩ := attempt_bind_cases hrun
    obtain ⟨ws, hcalls⟩ := (World.callsMethod_iff htells).1 hcall
    obtain ⟨ws', hwrites⟩ := ih _ hrest
    exact ⟨ws ++ ws', .callMethod hcalls hwrites⟩
  | call f this args next ih =>
    obtain ⟨outcome, w₁, hcall, hrest⟩ := attempt_bind_cases hrun
    obtain ⟨ws, hcalled⟩ := htells.1 hcall
    obtain ⟨ws', hwrites⟩ := ih _ hrest
    exact ⟨ws ++ ws', .call hcalled hwrites⟩

/-- What is told of script code is a run of it. -/
theorem ScriptCode.Writes.run (htells : calls.Tells r) {code : ScriptCode}
    {out : Except Error ScriptValue} (hwrites : code.Writes calls w ws out w') :
    code.run r w = some (out, w') := by
  induction hwrites with
  | done => rfl
  | newArray _ ih | newObject _ ih | newFunction _ ih => exact ih
  | readVariable _ ih | define _ ih => exact ih
  | noGlobal found _ ih => exact (bind_ok (Reentry.global?_of_absent found) _).trans ih
  | readGlobal found gets _ ih =>
    have hread := (World.gets_iff htells).2 ⟨_, gets⟩
    exact (bind_ok ((Reentry.global?_iff found).2 ⟨_, hread, rfl⟩) _).trans ih
  | get gets _ ih =>
    exact (bind_ok (attempt_some ((World.gets_iff htells).2 ⟨_, gets⟩)) _).trans ih
  | set does _ ih =>
    have hset := (Operation.does_iff _ htells).2 ⟨_, does⟩
    exact (bind_ok (attempt_some hset) _).trans ih
  | callMethod callsMethod _ ih =>
    have hcall := (World.callsMethod_iff htells).2 ⟨_, callsMethod⟩
    exact (bind_ok (attempt_some hcall) _).trans ih
  | call called _ ih => exact (bind_ok (attempt_some (htells.2 ⟨_, called⟩)) _).trans ih

/-- Script code comes to the ends that are told. -/
theorem ScriptCode.writes_iff (htells : calls.Tells r) {code : ScriptCode}
    {out : Except Error ScriptValue} :
    code.run r w = some (out, w') ↔ ∃ ws, code.Writes calls w ws out w' :=
  ⟨exists_writes htells, fun ⟨_, hwrites⟩ => hwrites.run htells⟩

/-! ## What is told is what happens -/

theorem World.Gets.records (hsound : calls.Sound) {outcome : Except Error ScriptValue}
    (hgets : w.Gets calls o key ws outcome w') : w.heap.Records ws w'.heap := by
  cases hgets with
  | getter _ called => exact hsound called
  | _ => exact .nothing

theorem World.CallsMethod.records (hsound : calls.Sound) {args : List ScriptValue}
    {outcome : Except Error ScriptValue}
    (hcalls : w.CallsMethod calls o key args ws outcome w') : w.heap.Records ws w'.heap := by
  cases hcalls with
  | failed gets => exact gets.records hsound
  | noFunction gets => exact gets.records hsound
  | called gets call => exact (gets.records hsound).trans (hsound call)

theorem Operation.Does.records (hsound : calls.Sound) {op : Operation}
    {outcome : Except Error Unit} (hdoes : op.Does calls w ws outcome w') :
    w.heap.Records ws w'.heap := by
  cases hdoes with
  | define | insert | set => exact .define ..
  | readOnly => exact .nothing
  | setter _ called => exact hsound called

/-- What script code writes is what happens to the heap. -/
theorem ScriptCode.Writes.records (hsound : calls.Sound) {code : ScriptCode}
    {out : Except Error ScriptValue} (hwrites : code.Writes calls w ws out w') :
    w.heap.Records ws w'.heap := by
  induction hwrites with
  | done => exact .nothing
  | newArray _ ih => exact (Heap.Records.newArray ..).trans ih
  | newObject _ ih => exact (Heap.Records.newObject rfl).trans ih
  | newFunction _ ih => exact (Heap.Records.newFunction ..).trans ih
  | readVariable _ ih => exact ih
  | noGlobal _ _ ih => exact ih
  | readGlobal _ gets _ ih => exact (gets.records hsound).trans ih
  | define _ ih => exact (Heap.Records.define ..).trans ih
  | get gets _ ih => exact (gets.records hsound).trans ih
  | set does _ ih => exact (does.records hsound).trans ih
  | callMethod callsMethod _ ih => exact (callsMethod.records hsound).trans ih
  | call called _ ih => exact (hsound called).trans ih

end

namespace Catalog

variable (catalog : Catalog)

/-- At every level, exactly the calls that come to an end are told. -/
theorem tells_callWrites (n : Nat) : (catalog.callWrites n).Tells (catalog.reentry n) := by
  induction n with
  | zero =>
    intro f this args w w' outcome
    constructor
    · intro hrun
      cases hrun
    · rintro ⟨ws, hcalls⟩
      cases hcalls
  | succ n ih =>
    intro f this args w w' outcome
    unfold callWrites
    cases hbody : (w.heap.function f).body with
    | hosted code =>
      have hcall : (catalog.reentry (n + 1)).callFunction f this args w =
          (code this args).run (catalog.reentry n)
            (w.noting (.function (w.heap.function f).name this args)) := by
        show catalog.callFunction (catalog.reentry n) f this args w = _
        rw [callFunction, bind_ok (ofHeap_apply _ w), hbody]
        rfl
      rw [hcall]
      exact ScriptCode.writes_iff ih
    | _ =>
      constructor
      · intro hrun
        obtain ⟨ws, hrecords⟩ :=
          ((catalog.moves_reentry (n + 1)).callFunction f this args hrun).moves.records
        exact ⟨ws, hrun, hrecords⟩
      · rintro ⟨ws, hrun, -⟩
        exact hrun

/-- At every level, what calls write is what happens to the heap. -/
theorem sound_callWrites (n : Nat) : (catalog.callWrites n).Sound := by
  induction n with
  | zero =>
    intro f this args w w' ws outcome hcalls
    cases hcalls
  | succ n ih =>
    intro f this args w w' ws outcome hcalls
    unfold callWrites at hcalls
    cases hbody : (w.heap.function f).body with
    | hosted code =>
      rw [hbody] at hcalls
      have hcode : (code this args).Writes (catalog.callWrites n)
        (w.noting (.function (w.heap.function f).name this args)) ws outcome w' := hcalls
      have hrecords := hcode.records ih
      exact hrecords
    | _ =>
      rw [hbody] at hcalls
      exact hcalls.2

end Catalog

end ScriptBoundary
