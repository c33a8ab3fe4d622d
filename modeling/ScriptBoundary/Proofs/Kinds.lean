import ScriptBoundary.Exposing
import ScriptBoundary.Proofs.Conformance

/-!
# The policy and the conversion agree

The policy gives each type a script kind, the check expresses a value in a type, and the conversion
goes by the value alone. Where the type leaves no choice (`NativeType.isDefinite`), a value that is
wrapped as one of the type is of the kind that the policy gives it, and so are its parts
(`Catalog.Agrees`). The induction is on the ways in which a value passes the check, since it is the
checked value that is converted.
-/

namespace ScriptBoundary

open Run

/-- The type fixes the kind of its values on the script side, at every depth. -/
def NativeType.isDefinite : NativeType → Bool
  | any | void | json => false
  | array inner | sequence inner | dictionary inner => inner.isDefinite
  | bool | int _ | float _ | char | datetime | string | enumeration _ | multimap | callable _
  | object _ => true

namespace NativeValue

/-- The items of an array or a sequence. -/
def items : NativeValue → List NativeValue
  | array items | sequence items => items
  | _ => []

/-- The entries of a dictionary. -/
def entries : NativeValue → List (String × NativeValue)
  | dictionary entries => entries
  | _ => []

end NativeValue

/-- What is found under a key among entries whose values are changed. -/
theorem Keyed.get?_map {κ α β : Type} [DecidableEq κ] (key : κ) (f : α → β)
    (entries : List (κ × α)) :
    get? key (entries.map fun e => (e.1, f e.2)) = (get? key entries).map f := by
  induction entries with
  | nil => rfl
  | cons e rest ih =>
    rw [List.map_cons, get?, get?, ih]
    split <;> rfl

/-- A word crosses in the kind of its width. -/
theorem Word.kind_toScript {kind : IntKind} (n : Word kind) :
    n.toScript.kind = kind.scriptKind := by
  cases kind <;> rfl

theorem Word.toScript_ne_undefined {kind : IntKind} (n : Word kind) : n.toScript ≠ .undefined := by
  cases kind <;> simp [Word.toScript, IntKind.scriptKind]

namespace Catalog

variable (catalog : Catalog)

/-- Undefined stands for null and for the start of the calendar and for nothing else, and any other
value is of the kind that the policy gives the type. -/
structure OfKind (type : NativeType) (v : NativeValue) (s : ScriptValue) : Prop where
  undefined_iff : s = .undefined ↔ v = .null ∨ v = .datetime .earliest
  kind : s ≠ .undefined → catalog.scriptKind type = .ok s.kind

/-- A script value is of the kind of a type, and so are its parts: each item stands for the native
item in its place, each property for the last entry with its key. -/
def Agrees (h : Heap) : NativeType → NativeValue → ScriptValue → Prop
  | .array element, v, s => catalog.OfKind (.array element) v s ∧
    ∀ a, s = .array a → List.Forall₂ (fun v s => Agrees h element v s) v.items (h.items a)
  | .sequence element, v, s => catalog.OfKind (.sequence element) v s ∧
    ∀ a, s = .array a → List.Forall₂ (fun v s => Agrees h element v s) v.items (h.items a)
  | .dictionary element, v, s => catalog.OfKind (.dictionary element) v s ∧
    ∀ o, s = .object o → ∀ key,
      Option.Rel (fun v property => ∃ s, property = .data s ∧ Agrees h element v s)
        (Keyed.get? key v.entries.reverse) (h.own? o key)
  | type, v, s => catalog.OfKind type v s

variable {catalog}

theorem OfKind.null (type : NativeType) : catalog.OfKind type .null .undefined where
  undefined_iff := ⟨fun _ => .inl rfl, fun _ => rfl⟩
  kind h := absurd rfl h

/-- Something stands for something. -/
theorem OfKind.present {type : NativeType} {v : NativeValue} {s : ScriptValue}
    (hv : v ≠ .null ∧ v ≠ .datetime .earliest) (hs : s ≠ .undefined)
    (hkind : catalog.scriptKind type = .ok s.kind) : catalog.OfKind type v s where
  undefined_iff := ⟨fun h => absurd h hs, fun h => h.elim (absurd · hv.1) (absurd · hv.2)⟩
  kind _ := hkind

/-- Null becomes undefined, whatever the type. -/
theorem agrees_null (h : Heap) (type : NativeType) : catalog.Agrees h type .null .undefined := by
  have hnull : catalog.OfKind type .null .undefined := OfKind.null type
  cases type with
  | array element => exact ⟨hnull, fun a ha => by cases ha⟩
  | sequence element => exact ⟨hnull, fun a ha => by cases ha⟩
  | dictionary element => exact ⟨hnull, fun o ho => by cases ho⟩
  | _ => exact hnull

/-- A value that is a number is there. -/
theorem ne_null_of_numeric {v : NativeValue} {number : Numeric} (h : Numeric.of? v = some number) :
    v ≠ .null ∧ v ≠ .datetime .earliest := by
  constructor <;>
  · rintro rfl
    cases h

/-- What a date becomes is of its kind. -/
theorem OfKind.datetime (t : Instant) : catalog.OfKind .datetime (.datetime t) t.toScript := by
  unfold Instant.toScript
  split
  · next h =>
    rw [h]
    exact ⟨⟨fun _ => .inr rfl, fun _ => rfl⟩, fun h => absurd rfl h⟩
  · next h =>
    refine .present ⟨by simp, fun heq => h ?_⟩ (by simp) rfl
    cases heq
    rfl

/-- What a value of an enumeration becomes is of its kind. -/
theorem OfKind.enumeration {d : Enumeration} {v : NativeValue} {raw : Word .i64} {s : ScriptValue}
    (hv : v ≠ .null ∧ v ≠ .datetime .earliest) (h : d.toScript raw = .ok s) :
    catalog.OfKind (.enumeration d) v s := by
  unfold Enumeration.toScript at h
  cases hflags : d.flags with
  | true =>
    rw [if_pos hflags] at h
    obtain ⟨n, -, rfl⟩ := exists_of_map_eq_ok h
    refine .present hv n.toScript_ne_undefined ?_
    rw [scriptKind, if_pos hflags, n.kind_toScript]
  | false =>
    rw [if_neg (ne_true_of_eq_false hflags)] at h
    split at h
    · cases h
      refine .present hv (by simp) ?_
      rw [scriptKind, if_neg (ne_true_of_eq_false hflags)]
      rfl
    · cases h

/-- Making a value leaves something of the kind of a type, when nothing about it depends on the
heap. -/
theorem leaves_ofKind {make : Run Error ScriptValue} {type : NativeType} {v : NativeValue}
    (hv : v ≠ .null ∧ v ≠ .datetime .earliest) (hkeeps : make.Within World.Keeps)
    (hgives : make.Gives fun s => s ≠ .undefined ∧ catalog.scriptKind type = .ok s.kind) :
    Leaves make fun s _ => catalog.OfKind type v s :=
  .of_keeps hkeeps fun _ _ _ hrun _ => .present hv (hgives hrun).1 (hgives hrun).2

theorem keeps_textsToScript (texts : List (Option String)) :
    (textsToScript texts).Within World.Keeps := by
  unfold textsToScript
  split
  · exact .pure _
  · exact .bind (.onHeap fun w => .newArray w.heap _) fun _ => .pure _

theorem keeps_faceOf (c : Callable) : (faceOf c : Run Error FunctionId).Within World.Keeps :=
  .onHeap fun w => .newFunction w.heap _

theorem keeps_wrapInstance (target : Instance) :
    (catalog.wrapInstance target).Within World.Keeps :=
  .bind (catalog.keeps_definitionOf _) fun _ =>
    .bind (.onHeap fun w => .newObject w.heap _) fun _ => .pure _

/-- The items of a collection become those of an array. -/
theorem leaves_items {element : NativeType} {pairs : List (NativeValue × NativeValue)}
    (h : ∀ p ∈ pairs, Leaves (catalog.toScript p.2) fun s heap =>
      catalog.Agrees heap element p.1 s) :
    Leaves (catalog.toScript (.array (pairs.map (·.2)))) fun s heap => ∃ a, s = .array a ∧
      List.Forall₂ (fun v s => catalog.Agrees heap element v s) (pairs.map (·.1))
        (heap.items a) := by
  rw [toScript_array, List.mapM_map]
  refine .mono (Leaves.array h) ?_
  rintro s heap ⟨a, rfl, hitems⟩
  exact ⟨a, rfl, List.forall₂_map_left_iff.2 hitems⟩

/-- The entries of a dictionary become the properties of an object. -/
theorem leaves_entries {element : NativeType} {entries : List (String × NativeValue × NativeValue)}
    (h : ∀ e ∈ entries, Leaves (catalog.toScript e.2.2) fun s heap =>
      catalog.Agrees heap element e.2.1 s) :
    Leaves (catalog.toScript (.dictionary (entries.map fun e => (e.1, e.2.2)))) fun s heap =>
      ∃ o, s = .object o ∧ ∀ key,
        Option.Rel (fun v property => ∃ s, property = .data s ∧ catalog.Agrees heap element v s)
          (Keyed.get? key (entries.map fun e => (e.1, e.2.1)).reverse) (heap.own? o key) := by
  let make : NativeValue × NativeValue → Run Error ScriptValue := fun p => catalog.toScript p.2
  let holds : NativeValue × NativeValue → ScriptValue → Heap → Prop := fun p s heap =>
    catalog.Agrees heap element p.1 s
  have hmake : ∀ e ∈ entries, Leaves (make e.2) (holds e.2) := h
  have hput : ∀ o, (entries.map fun e => (e.1, e.2.2)).forM (Makes.putField catalog.toScript o) =
      entries.forM (Makes.putField make o) := fun o => List.forM_map
  rw [toScript_dictionary]
  simp only [hput]
  refine .mono (Leaves.object hmake) ?_
  rintro s heap ⟨o, rfl, hown⟩
  refine ⟨o, rfl, fun key => ?_⟩
  rw [← List.map_reverse, Keyed.get?_map]
  exact rel_map_left (hown key)

/-- What passes the check against a type that fixes the kinds, and whose kinds the policy gives, is
converted to something of these kinds. -/
theorem leaves_agrees {type : NativeType} {v u : NativeValue} (h : catalog.Conforms type v u)
    (htype : type.isDefinite = true) (hkind : ∃ k, catalog.scriptKind type = .ok k) :
    Leaves (catalog.toScript u) fun s heap => catalog.Agrees heap type v s := by
  induction h with
  | void => cases htype
  | any => cases htype
  | json => cases htype
  | @null type h => exact .of_keeps (.pure _) (.pure fun heap => agrees_null heap type)
  | bool b => exact leaves_ofKind (by simp) (.pure _) (.pure ⟨by simp, rfl⟩)
  | char c => exact leaves_ofKind (by simp) (.pure _) (.pure ⟨by simp, rfl⟩)
  | string text => exact leaves_ofKind (by simp) (.pure _) (.pure ⟨by simp, rfl⟩)
  | datetime t => exact .of_keeps (.pure _) (.pure fun _ => OfKind.datetime t)
  | @int kind v number n of held =>
    refine leaves_ofKind (ne_null_of_numeric of) (.pure _) (.pure ⟨n.toScript_ne_undefined, ?_⟩)
    rw [scriptKind, n.kind_toScript]
  | float of held =>
    exact leaves_ofKind (ne_null_of_numeric of) (.pure _) (.pure ⟨by simp, rfl⟩)
  | enumeration raw name =>
    exact .ofConversion fun s hs _ => OfKind.enumeration (by simp) hs
  | number of held =>
    exact .ofConversion fun s hs _ => OfKind.enumeration (ne_null_of_numeric of) hs
  | multimap entries =>
    rw [toScript_multimap]
    let holds : List (Option String) → ScriptValue → Heap → Prop := fun _ _ _ => True
    have htexts : ∀ e ∈ entries, Leaves (textsToScript e.2) (holds e.2) :=
      fun e _ => .of_keeps (keeps_textsToScript e.2) fun _ _ _ _ _ => trivial
    refine .mono (Leaves.object htexts) ?_
    rintro s heap ⟨o, rfl, -⟩
    exact OfKind.present (by simp) (by simp) rfl
  | callable shape c =>
    obtain ⟨k, hk⟩ := hkind
    obtain ⟨_, hsupported, -⟩ := exists_of_map_eq_ok hk
    refine leaves_ofKind (by simp) (.bind (keeps_faceOf c) fun _ => .pure _)
      (.bind_any fun _ => .pure ⟨by simp, ?_⟩)
    rw [scriptKind, hsupported]
    rfl
  | array h ih =>
    obtain ⟨k, hk⟩ := hkind
    obtain ⟨inner, hinner, rfl⟩ := exists_of_map_eq_ok hk
    refine .mono (leaves_items fun p hp => ih p hp htype ⟨inner, hinner⟩) ?_
    rintro s heap ⟨a, rfl, hitems⟩
    refine ⟨.present (by simp) (by simp) hk, fun a' ha' => ?_⟩
    cases ha'
    exact hitems
  | sequence items h ih =>
    obtain ⟨k, hk⟩ := hkind
    obtain ⟨inner, hinner, rfl⟩ := exists_of_map_eq_ok hk
    -- A sequence crosses as an array of its items does.
    refine .mono (leaves_items fun p hp => ih p hp htype ⟨inner, hinner⟩) ?_
    rintro s heap ⟨a, rfl, hitems⟩
    rcases items with rfl | rfl
    all_goals
      refine ⟨.present (by simp) (by simp) hk, fun a' ha' => ?_⟩
      cases ha'
      exact hitems
  | dictionary h ih =>
    obtain ⟨k, hk⟩ := hkind
    obtain ⟨inner, hinner, rfl⟩ := exists_of_map_eq_ok hk
    refine .mono (leaves_entries fun e he => ih e he htype ⟨inner, hinner⟩) ?_
    rintro s heap ⟨o, rfl, hown⟩
    refine ⟨.present (by simp) (by simp) hk, fun o' ho' => ?_⟩
    cases ho'
    exact hown
  | object h =>
    obtain ⟨k, hk⟩ := hkind
    refine leaves_ofKind (by simp) (keeps_wrapInstance _)
      (.bind_any fun _ => .bind_any fun _ => .pure ⟨by simp, ?_⟩)
    rw [scriptKind] at hk ⊢
    split at hk
    · cases hk
    · next hmembers => rw [if_neg hmembers]; rfl

/-- The policy and the conversion agree. When a native value is wrapped as one of a type that fixes
kinds, undefined stands for null and for the start of the calendar and for nothing else, any other
value is of the kind that the policy gives the type, and the same holds of the items of arrays and
sequences and of the properties of dictionaries, at every depth. -/
theorem wrap_agrees (catalog : Catalog) {type : NativeType} (htype : type.isDefinite = true)
    {v : NativeValue} {s : ScriptValue} {w w' : World}
    (h : catalog.wrap type v w = some (.ok s, w')) : catalog.Agrees w'.heap type v s := by
  obtain ⟨kind, w₁, hsupported, h⟩ := bind_ok_cases h
  obtain ⟨hkind, rfl⟩ := ofConversion_ok hsupported
  obtain ⟨u, w₂, hchecked, hmake⟩ := bind_ok_cases h
  obtain ⟨hconform, rfl⟩ := ofConversion_ok hchecked
  have hleaves := leaves_agrees (conforms_of_conform hconform) htype ⟨kind, hkind⟩
  exact (hleaves hmake).2 w'.heap (Heap.Keeps.refl _ _)

/-- The colours of a house. -/
def colours : Enumeration := ⟨"Colour", false, .u8, [("red", .clamp .i64 1)]⟩

/-- The walls are painted over, and nothing is said of the door. -/
def painted : NativeValue :=
  .dictionary [("wall", .array []), ("door", .null), ("wall", .array [.int .i8 (.clamp .i8 1)])]

/-- The paint of a house shows as its type says. -/
theorem painted_agrees :
    let type : NativeType := .dictionary (.sequence (.enumeration colours))
    ∃ s w', boilers.wrap type painted {} = some (.ok s, w') ∧
      boilers.Agrees w'.heap type painted s := by
  intro type
  have hgives : (boilers.wrap type painted {}).map (·.1.toOption.isSome) = some true := by
    decide +kernel
  obtain ⟨⟨_ | s, w'⟩, hwrap, hs⟩ := Option.map_eq_some_iff.1 hgives
  · cases hs
  · exact ⟨s, w', hwrap, wrap_agrees boilers rfl hwrap⟩

end Catalog

end ScriptBoundary
