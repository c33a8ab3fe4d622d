import ScriptBoundary.Calls.Delegate
import ScriptBoundary.Proofs.Conversions
import ScriptBoundary.Proofs.Inhabitants

/-!
# What native code receives it may hand back

A script value is converted by the type that a parameter declares, and a result is checked against
the type that its member declares. The two go by different cases, so that they agree is said through
a third thing: the values of the type. Whatever a conversion to a type gives is of the type
(`gives_toNative`), defaults and instances made from plain objects included, and what is of a type
passes the check as it is (`conform_of_inhabits`).
-/

namespace ScriptBoundary

open Run

/-! ## The check -/

namespace Binary

variable {k : FloatKind}

/-- A number of either width comes back from its double by rounding. -/
theorem convert_convert_double (x : Binary k) : (x.convert .f64).convert k = x := by
  cases k with
  | f64 => rw [convert_self, convert_self]
  | f32 =>
    cases x with
    | nan => rfl
    | infinite negative => rfl
    | finite negative units held => rw [convert_double, convert_single]

/-- A number equals itself. -/
theorem isNaN_or_numEq_self (x : Binary k) : (x.isNaN || x.numEq x) = true := by
  cases x <;> simp [isNaN, numEq]

end Binary

/-- A floating-point number is expressed in its own width. -/
theorem Numeric.toBinary?_convert {kind : FloatKind} (x : Binary kind) :
    (Numeric.real (x.convert .f64)).toBinary? kind = some x := by
  cases kind with
  | f64 => exact congrArg some x.convert_self
  | f32 =>
    simp only [toBinary?, toDouble?, Option.bind_some, x.convert_convert_double,
      Binary.isNaN_or_numEq_self, if_true]

/-- Pure steps that give back what they get give back the list. -/
theorem mapM_eq_ok_self {ε α : Type} {f : α → Except ε α} {l : List α}
    (h : ∀ a ∈ l, f a = .ok a) : l.mapM f = .ok l := by
  induction l with
  | nil => rfl
  | cons a l ih =>
    rw [List.mapM_cons, h a List.mem_cons_self, ok_bind,
      ih fun b hb => h b (List.mem_cons_of_mem _ hb)]
    rfl

namespace Catalog

variable {catalog : Catalog}

/-- What is of a type passes the check against the type, as it is. -/
theorem conform_of_inhabits {type : NativeType} {v : NativeValue} (h : catalog.Inhabits type v) :
    catalog.conform type v = .ok v := by
  induction h with
  | void v => cases v <;> rfl
  | any v => cases v <;> rfl
  | null h =>
    unfold conform
    rw [if_pos (by rw [h]; rfl)]
  | bool | char | datetime | string | multimap | callable | json => rfl
  | @int kind n =>
    have hword : (Numeric.integer n.val).toWord? kind = some n := n.ofInt?_val
    simp only [conform, NativeValue.isNull, Bool.false_and, Bool.false_eq_true, if_false,
      conformNumber, Numeric.of?, hword, Option.map_some]
  | @float kind x =>
    simp only [conform, NativeValue.isNull, Bool.false_and, Bool.false_eq_true, if_false,
      conformNumber, Numeric.of?, Numeric.toBinary?_convert, Option.map_some]
  | enumeration d raw =>
    simp only [conform, NativeValue.isNull, Bool.false_and, Bool.false_eq_true, if_false, if_true]
  | @array element items h ih =>
    have hitems : items.mapM (catalog.conform element) = .ok items := mapM_eq_ok_self ih
    simp only [conform, NativeValue.isNull, Bool.false_and, Bool.false_eq_true, if_false, hitems]
    rfl
  | @sequence element items h ih =>
    have hitems : items.mapM (catalog.conform element) = .ok items := mapM_eq_ok_self ih
    simp only [conform, NativeValue.isNull, Bool.false_and, Bool.false_eq_true, if_false, hitems]
    rfl
  | @dictionary element entries h ih =>
    have hentries : (entries.mapM fun entry =>
        (catalog.conform element entry.2).map (entry.1, ·)) = .ok entries :=
      mapM_eq_ok_self fun entry he => by rw [ih entry he]; rfl
    simp only [conform, NativeValue.isNull, Bool.false_and, Bool.false_eq_true, if_false, hentries]
    rfl
  | object h =>
    simp only [conform, NativeValue.isNull, Bool.false_and, Bool.false_eq_true, if_false, h,
      if_true]

/-- The second value is what the first becomes when it passes the check against a type. -/
inductive Conforms (catalog : Catalog) : NativeType → NativeValue → NativeValue → Prop
  | void (v : NativeValue) : Conforms catalog .void v v
  | any (v : NativeValue) : Conforms catalog .any v v
  | null {type : NativeType} (h : type.default.isNull = true) : Conforms catalog type .null .null
  | bool (b : Bool) : Conforms catalog .bool (.bool b) (.bool b)
  | char (c : Char) : Conforms catalog .char (.char c) (.char c)
  | datetime (t : Instant) : Conforms catalog .datetime (.datetime t) (.datetime t)
  | string (text : String) : Conforms catalog .string (.string text) (.string text)
  | multimap (entries : List (String × List (Option String))) :
      Conforms catalog .multimap (.multimap entries) (.multimap entries)
  | json (text : String) : Conforms catalog .json (.json text) (.json text)
  | callable (shape : Shape) (c : Callable) :
      Conforms catalog (.callable shape) (.callable c) (.callable c)
  | int {kind : IntKind} {v : NativeValue} {number : Numeric} {n : Word kind}
      (of : Numeric.of? v = some number) (held : number.toWord? kind = some n) :
      Conforms catalog (.int kind) v (.int kind n)
  | float {kind : FloatKind} {v : NativeValue} {number : Numeric} {x : Binary kind}
      (of : Numeric.of? v = some number) (held : number.toBinary? kind = some x) :
      Conforms catalog (.float kind) v (.float kind x)
  | enumeration {d actual : Enumeration} (raw : Word .i64) (name : actual.name = d.name) :
      Conforms catalog (.enumeration d) (.enumeration actual raw) (.enumeration d raw)
  | number {d : Enumeration} {v : NativeValue} {number : Numeric} {raw : Word .i64}
      (of : Numeric.of? v = some number) (held : number.toWord? .i64 = some raw) :
      Conforms catalog (.enumeration d) v (.enumeration d raw)
  | array {element : NativeType} {pairs : List (NativeValue × NativeValue)}
      (h : ∀ p ∈ pairs, Conforms catalog element p.1 p.2) :
      Conforms catalog (.array element) (.array (pairs.map (·.1))) (.array (pairs.map (·.2)))
  | sequence {element : NativeType} {v : NativeValue} {pairs : List (NativeValue × NativeValue)}
      (items : v = .array (pairs.map (·.1)) ∨ v = .sequence (pairs.map (·.1)))
      (h : ∀ p ∈ pairs, Conforms catalog element p.1 p.2) :
      Conforms catalog (.sequence element) v (.sequence (pairs.map (·.2)))
  | dictionary {element : NativeType} {entries : List (String × NativeValue × NativeValue)}
      (h : ∀ e ∈ entries, Conforms catalog element e.2.1 e.2.2) :
      Conforms catalog (.dictionary element)
        (.dictionary (entries.map fun e => (e.1, e.2.1)))
        (.dictionary (entries.map fun e => (e.1, e.2.2)))
  | object {c : ClassRef} {target : Instance}
      (h : catalog.isAssignable target.runtimeClass c = true) :
      Conforms catalog (.object c) (.object target) (.object target)

/-- A value that passes as a number is a number that the type can express. -/
theorem exists_numeric_of_conformNumber {type : NativeType} {v u : NativeValue}
    {express : Numeric → Option NativeValue}
    (h : catalog.conformNumber type v express = .ok u) :
    ∃ number, Numeric.of? v = some number ∧ express number = some u := by
  unfold conformNumber at h
  split at h
  · cases h
  · next number hof =>
    split at h
    · cases h
    · next hexpress =>
      cases h
      exact ⟨number, hof, hexpress⟩

/-- What passes the check does so in one of these ways. -/
theorem conforms_of_conform {type : NativeType} {v u : NativeValue}
    (h : catalog.conform type v = .ok u) : catalog.Conforms type v u := by
  -- By induction on the size of the type, since the cases are told by type and value together.
  induction hn : sizeOf type using Nat.strongRecOn generalizing type v u with
  | _ n ih =>
    subst hn
    unfold conform at h
    split at h
    · next hnull =>
      cases h
      rw [Bool.and_eq_true] at hnull
      cases v <;> first | exact .null hnull.2 | cases hnull.1
    · split at h
      · cases h
        exact .void _
      · cases h
        exact .any _
      · cases h
        exact .bool _
      · cases h
        exact .char _
      · cases h
        exact .datetime _
      · cases h
        exact .string _
      · cases h
        exact .multimap _
      · cases h
        exact .json _
      · cases h
        exact .callable _ _
      · obtain ⟨number, hof, hexpress⟩ := exists_numeric_of_conformNumber h
        obtain ⟨n, hheld, rfl⟩ := Option.map_eq_some_iff.1 hexpress
        exact .int hof hheld
      · obtain ⟨number, hof, hexpress⟩ := exists_numeric_of_conformNumber h
        obtain ⟨x, hheld, rfl⟩ := Option.map_eq_some_iff.1 hexpress
        exact .float hof hheld
      · split at h
        · next hname =>
          cases h
          exact .enumeration _ hname
        · cases h
      · obtain ⟨number, hof, hexpress⟩ := exists_numeric_of_conformNumber h
        obtain ⟨raw, hheld, rfl⟩ := Option.map_eq_some_iff.1 hexpress
        exact .number hof hheld
      · next element items _ =>
        obtain ⟨us, hus, rfl⟩ := exists_of_map_eq_ok h
        obtain ⟨pairs, rfl, rfl, hpairs⟩ := exists_pairs_of_mapM_eq_ok hus
        exact .array fun p hp => ih _ (by simp) (hpairs p hp) rfl
      · next element items _ =>
        obtain ⟨us, hus, rfl⟩ := exists_of_map_eq_ok h
        obtain ⟨pairs, rfl, rfl, hpairs⟩ := exists_pairs_of_mapM_eq_ok hus
        exact .sequence (.inr rfl) fun p hp => ih _ (by simp) (hpairs p hp) rfl
      · next element items _ =>
        obtain ⟨us, hus, rfl⟩ := exists_of_map_eq_ok h
        obtain ⟨pairs, rfl, rfl, hpairs⟩ := exists_pairs_of_mapM_eq_ok hus
        exact .sequence (.inl rfl) fun p hp => ih _ (by simp) (hpairs p hp) rfl
      · next element entries _ =>
        obtain ⟨es, hes, rfl⟩ := exists_of_map_eq_ok h
        obtain ⟨triples, rfl, rfl, htriples⟩ := exists_triples_of_mapM_eq_ok hes
        exact .dictionary fun e he => ih _ (by simp) (htriples e he) rfl
      · split at h
        · next hc =>
          cases h
          exact .object hc
        · cases h
      · cases h

/-! ## The conversion -/

/-- The default of a type is of the type. -/
theorem inhabits_default (type : NativeType) : catalog.Inhabits type type.default := by
  cases type with
  | bool => exact .bool false
  | int kind => exact .int .zero
  | float kind => exact .float (.zero false)
  | char => exact .char '\x00'
  | datetime => exact .datetime .earliest
  | enumeration d => exact .enumeration d .zero
  | _ => exact .null rfl

/-- A class can stand where its own type is asked for. -/
theorem isAssignable_self (c : ClassRef) : catalog.isAssignable c c = true := by
  rw [isAssignable, catalog.ancestors_eq, List.any_cons, sameType, beq_self_eq_true,
    Bool.true_or, Bool.true_or]

/-- What the constructors of a class make can stand for it. -/
theorem isAssignable_made (c : ClassRef) : catalog.isAssignable (catalog.made c) c = true := by
  unfold made
  split
  · split
    · next h => exact h
    · exact isAssignable_self c
  · exact isAssignable_self c

variable (catalog) (r : Reentry)

/-- A constructor gives an instance of the class that is made. -/
theorem gives_runConstructor (c made : ClassRef) (code : MemberCode) (args : List NativeValue) :
    (r.runConstructor c made code args).Gives (·.runtimeClass = made) := by
  refine .bind_any fun _ => ?_
  -- The code of the constructor may change what the instance holds, not its class.
  refine .bind (Q := (·.runtimeClass = made)) ?_ fun target htarget =>
    .bind_any fun _ => .pure htarget
  intro w target w' h
  cases h
  rfl

/-- A plain object becomes an instance that can stand for the class. -/
theorem gives_constructFromPlain (o : ObjectId) (c : ClassRef) :
    (catalog.constructFromPlain r o c).Gives (catalog.Inhabits (.object c)) := by
  unfold constructFromPlain
  dsimp only
  split
  · exact .bind (Q := fun _ => False) (.throw _) fun _ h => h.elim
  · split
    · exact .throw _
    · -- Setters run on the instance that the constructor made.
      refine .bind (.mapError (gives_runConstructor r c _ _ []) _) fun target htarget => ?_
      refine .bind_any fun _ => .bind_any fun _ => .pure (.object ?_)
      rw [htarget]
      exact isAssignable_made c

/-- An object becomes an instance that can stand for the class. -/
theorem gives_objectToNative (o : ObjectId) (c : ClassRef) :
    (catalog.objectToNative r o c).Gives (catalog.Inhabits (.object c)) := by
  refine .bind_any fun object => ?_
  split
  · split
    · next h => exact .pure (.object h)
    · exact .throw _
  · exact catalog.gives_constructFromPlain r o c

/-- What a script value becomes for a type is of the type. -/
theorem gives_toNative (type : NativeType) (s : ScriptValue) :
    (catalog.toNative r type s).Gives (catalog.Inhabits type) := by
  -- By induction on the size of the type, since the cases are told by type and value together.
  induction hn : sizeOf type using Nat.strongRecOn generalizing type s with
  | _ n ih =>
    subst hn
    unfold toNative
    split
    · exact .pure (inhabits_default type)
    · split
      · exact .pure (.void .null)
      · next b _ => exact .pure (.bool b)
      · exact .bind_any fun n => .pure (.int n)
      · exact .bind_any fun x => .pure (.float x)
      · exact .pure (.char _)
      · exact .bind_any fun t => .pure (.datetime t)
      · exact .pure (.string _)
      · exact .bind_any fun raw => .pure (.enumeration _ raw)
      · next element a _ =>
        refine .bind_any fun items => ?_
        refine .bind (.mapM fun item _ => ih _ (by simp) element item rfl) fun vs hvs => ?_
        exact .pure (.array hvs)
      · exact .throw _
      · next element o _ =>
        refine .bind_any fun entries => ?_
        refine .bind (Q := fun es : List (String × NativeValue) =>
          ∀ entry ∈ es, catalog.Inhabits element entry.2) ?_ fun es hes => .pure (.dictionary hes)
        exact .mapM fun entry _ =>
          .bind (ih _ (by simp) element entry.2 rfl) fun v hv => .pure hv
      · exact .bind_any fun _ => .pure (.multimap _)
      · next shape f _ => exact .bind_any fun c => .pure (.callable shape c)
      · exact .bind_any fun _ => .pure (.json _)
      · exact catalog.gives_objectToNative r _ _
      · exact fun _ v _ _ => .any v
      · exact .throw _

/-- What native code receives for a type passes the check against the type, as it is, so it may be
handed back as a result of the type. -/
theorem conform_toNative {type : NativeType} {s : ScriptValue} {v : NativeValue} {w w' : World}
    (h : catalog.toNative r type s w = some (.ok v, w')) : catalog.conform type v = .ok v :=
  conform_of_inhabits (catalog.gives_toNative r type s h)

/-- Boilers, whose constructor makes gas boilers and whose fuel scripts set. -/
def boilers : Catalog where
  decls :=
    [{ (default : ClassDecl) with
        identity := ⟨1⟩, name := "Boiler",
        properties := [⟨"Fuel", .string, some (.property (some "fuel") false), none,
          .readWrite (fun _ _ => .done (.ok .null)) (fun _ _ => .done (.ok .null))⟩],
        constructors := [⟨[], fun _ _ => .done (.ok .null)⟩], made := some ⟨1⟩ },
      { (default : ClassDecl) with identity := ⟨2⟩, name := "GasBoiler", base := some ⟨0⟩ }]
  restsOn := by decide

/-- A plain object with two rooms: one has a boiler, itself a plain object, and a gap, of the other
nothing is said. -/
def housePlan : World where
  heap := {
    arrays := #[[.object ⟨2⟩, .null]]
    objects := #[.plain,
      ⟨"Object", [], none, [("hall", .data (.array ⟨0⟩)), ("attic", .data .undefined)]⟩,
      ⟨"Object", [], none, [("fuel", .data (.string "gas"))]⟩] }

/-- The house that is built after the plan. -/
def builtHouse : NativeValue :=
  .dictionary [("hall", .array [.object ⟨1, ⟨1⟩⟩, .null]), ("attic", .null)]

/-- Building the house after the plan gives a house that passes as one. -/
theorem built_house_conforms :
    let rooms : NativeType := .dictionary (.array (.object ⟨0⟩))
    ∃ w', boilers.toNative (boilers.reentry 2) rooms (.object ⟨1⟩) housePlan =
        some (.ok builtHouse, w') ∧
      boilers.conform rooms builtHouse = .ok builtHouse := by
  intro rooms
  have hbuilt : boilers.toNative (boilers.reentry 2) rooms (.object ⟨1⟩) housePlan =
      some (.ok builtHouse, _) := rfl
  exact ⟨_, hbuilt, conform_toNative boilers (boilers.reentry 2) hbuilt⟩

end Catalog

end ScriptBoundary
