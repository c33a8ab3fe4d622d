import Mathlib.Data.List.Nodup
import ScriptBoundary.Calls.Delegate
import ScriptBoundary.Proofs.Conversions
import ScriptBoundary.Proofs.Inhabitants

/-!
# Round trip

A native value that crosses to scripts comes back as it was when it is converted to its own type.
The way out follows the value and the way back the type, so the induction is on the derivation that
the value is of the type, and says of each part that it can be made and reads back from then on
(`Catalog.Crosses`).

Instances cross as proxies, for which the definitions of their classes must be built. The building
that a value needs is told by the instances in it, in the order in which they cross.
-/

namespace ScriptBoundary

open Run

/-! ## Numbers and dates -/

/-- A kind that crosses as an integer has its range within thirty-two bits. -/
theorem IntKind.within_i32 {kind : IntKind} (h : kind.scriptKind = .integer) :
    IntKind.i32.min ≤ kind.min ∧ kind.max ≤ IntKind.i32.max := by
  cases kind <;> cases h <;> decide

/-- A kind that crosses as an unsigned integer has its range within thirty-two bits. -/
theorem IntKind.within_u32 {kind : IntKind} (h : kind.scriptKind = .unsigned) :
    IntKind.u32.min ≤ kind.min ∧ kind.max ≤ IntKind.u32.max := by
  cases kind <;> cases h
  decide

namespace Word

variable {kind wide : IntKind}

/-- A word in a wider kind is its number. -/
theorem val_clamp (n : Word kind) (hmin : wide.min ≤ kind.min) (hmax : kind.max ≤ wide.max) :
    (clamp wide n.val).val = n.val := by
  have h₁ := Int.le_trans hmin n.min_le
  have h₂ := Int.le_trans n.le_max hmax
  simp only [clamp, if_neg (Int.not_lt.2 h₁), if_neg (Int.not_lt.2 h₂)]

/-- A word crosses as its number. -/
theorem asNumber_toScript (n : Word kind) : n.toScript.asNumber = some (.ofInt .f64 n.val) := by
  unfold toScript
  cases h : kind.scriptKind with
  | integer =>
    obtain ⟨hmin, hmax⟩ := IntKind.within_i32 h
    simp only [ScriptValue.asNumber, n.val_clamp hmin hmax]
  | unsigned =>
    obtain ⟨hmin, hmax⟩ := IntKind.within_u32 h
    simp only [ScriptValue.asNumber, n.val_clamp hmin hmax]
  | _ => rfl

/-- A word crosses as a number, not as nothing and not as a text. -/
theorem toScript_cases (n : Word kind) :
    n.toScript.isNullish = false ∧ n.toScript.toDouble = .ok (.ofInt .f64 n.val) := by
  have hnumber := n.asNumber_toScript
  unfold toScript at hnumber ⊢
  cases h : kind.scriptKind <;> rw [h] at hnumber <;>
    simp only [ScriptValue.isNullish, ScriptValue.toDouble, hnumber, and_self]

/-- A word comes back from the script side as what its double stands for. -/
theorem wordOf_toScript (catalog : Catalog) (type : NativeType) (n : Word kind) {k : IntKind}
    {m : Word k} (h : ofDouble? k (.ofInt .f64 n.val) = some m) :
    catalog.wordOf type k n.toScript = .ok m :=
  catalog.wordOf_of_double n.toScript_cases.2 h

/-- Only the widest kinds pass `2^53`. -/
theorem natAbs_le (n : Word kind) (h : kind = .i64 ∨ kind = .u64 → n.val.natAbs ≤ 2 ^ 53) :
    n.val.natAbs ≤ 2 ^ 53 := by
  have hmin := n.min_le
  have hmax := n.le_max
  cases kind with
  | i64 => exact h (.inl rfl)
  | u64 => exact h (.inr rfl)
  | _ =>
    simp only [IntKind.min, IntKind.max] at hmin hmax
    omega

end Word

/-! ## Enumerations -/

namespace Enumeration

variable {d : Enumeration} {raw : Word .i64}

/-- The name that is written for the value of a variant is the name of that value. -/
theorem valueOf_nameOf (hdistinct : (d.variants.map (·.1)).Nodup)
    (hnamed : raw ∈ d.variants.map (·.2)) :
    ∃ name, d.nameOf raw = some name ∧ d.valueOf name = some raw := by
  obtain ⟨v, hv, hraw⟩ := List.mem_map.1 hnamed
  obtain ⟨p, hp⟩ : ∃ p, d.variants.find? (·.2 = raw) = some p := by
    refine Option.isSome_iff_exists.1 (List.find?_isSome.2 ⟨v, hv, ?_⟩)
    exact decide_eq_true hraw
  obtain ⟨q, hq⟩ : ∃ q, d.variants.find? (·.1 = p.1) = some q := by
    refine Option.isSome_iff_exists.1 (List.find?_isSome.2 ⟨p, List.mem_of_find?_eq_some hp, ?_⟩)
    exact decide_eq_true rfl
  have hname : q.1 = p.1 := by simpa using List.find?_some hq
  have hvalue : p.2 = raw := by simpa using List.find?_some hp
  -- Both are variants of one name, so they are one variant.
  have hsame : q = p := List.inj_on_of_nodup_map hdistinct (List.mem_of_find?_eq_some hq)
    (List.mem_of_find?_eq_some hp) hname
  refine ⟨p.1, by rw [nameOf, hp, Option.map_some], ?_⟩
  rw [valueOf, hq, Option.map_some, hsame, hvalue]

/-- The integer of flags that fit the representation. -/
theorem word_of_fits (h : d.repr.kind.min ≤ raw.val ∧ raw.val ≤ d.repr.kind.max) :
    d.word raw = .ok ⟨raw.val, h.1, h.2⟩ := by
  rw [word, Word.ofInt?, dif_pos h]

/-- What tells the value of an enumeration is read as it. -/
theorem Tells.settles (h : d.Tells raw) : d.Settles raw where
  fits := h.fits
  back hflags := by
    have hn : raw.val.natAbs ≤ 2 ^ 53 := by
      let n : Word d.repr.kind := ⟨raw.val, (h.fits hflags).1, (h.fits hflags).2⟩
      refine n.natAbs_le fun hwide => h.exact hflags ?_
      revert hwide
      cases d.repr <;> decide
    exact raw.ofDouble?_ofInt hn
  named := h.named
  distinct := h.distinct

/-- A value of an enumeration that settles crosses, not as nothing, and comes back. -/
theorem enumerationOf_toScript (catalog : Catalog) (h : d.Settles raw) :
    ∃ s, d.toScript raw = .ok s ∧ s.isNullish = false ∧ catalog.enumerationOf d s = .ok raw := by
  cases hflags : d.flags with
  | true =>
    have hword := word_of_fits (h.fits hflags)
    let n : Word d.repr.kind := ⟨raw.val, (h.fits hflags).1, (h.fits hflags).2⟩
    refine ⟨n.toScript, ?_, n.toScript_cases.1, ?_⟩
    · rw [toScript, if_pos hflags, hword]
      rfl
    · have hraw := n.wordOf_toScript catalog (.enumeration d) (h.back hflags)
      unfold Catalog.enumerationOf
      rw [if_pos hflags, hraw, ok_bind, hword, ok_bind]
      rfl
  | false =>
    obtain ⟨name, hname, hvalue⟩ := valueOf_nameOf (h.distinct hflags) (h.named hflags)
    refine ⟨.string name, ?_, rfl, ?_⟩
    · rw [toScript, hflags, if_neg Bool.false_ne_true, hname]
    · simp only [Catalog.enumerationOf, hflags, Bool.false_eq_true, if_false, hvalue]

end Enumeration

/-! ## The definitions that a value needs -/

namespace NativeValue

mutual

/-- The instances in a value, in the order in which they cross. -/
def instances : NativeValue → List Instance
  | object target => [target]
  | array items | sequence items => instancesOfAll items
  | dictionary entries => instancesOfEntries entries
  | _ => []

/-- The instances in the items of a collection. -/
def instancesOfAll : List NativeValue → List Instance
  | [] => []
  | item :: rest => item.instances ++ instancesOfAll rest

/-- The instances in the entries of a dictionary. -/
def instancesOfEntries : List (String × NativeValue) → List Instance
  | [] => []
  | (_, value) :: rest => value.instances ++ instancesOfEntries rest

end

end NativeValue

namespace Catalog

variable (catalog : Catalog) (r : Reentry)

/-- Builds the definitions for the proxies of instances, one after the other. -/
def buildAll (targets : List Instance) : Run Error Unit :=
  targets.forM fun target => do
    let _ ← catalog.definitionOf target.runtimeClass

theorem buildAll_append (some others : List Instance) :
    catalog.buildAll (some ++ others) =
      catalog.buildAll some >>= fun _ => catalog.buildAll others :=
  List.forM_append

theorem buildAll_items (items : List NativeValue) :
    catalog.buildAll (NativeValue.instancesOfAll items) =
      items.forM fun v => catalog.buildAll v.instances := by
  induction items with
  | nil => rfl
  | cons item rest ih =>
    rw [NativeValue.instancesOfAll, buildAll_append, ih]
    rfl

theorem buildAll_entries (entries : List (String × NativeValue)) :
    catalog.buildAll (NativeValue.instancesOfEntries entries) =
      entries.forM fun entry => catalog.buildAll entry.2.instances := by
  induction entries with
  | nil => rfl
  | cons entry rest ih =>
    rw [NativeValue.instancesOfEntries, buildAll_append, ih]
    rfl

/-! ## Values that cross and come back -/

/-- A value can be made on the script side, and reads back as itself from then on. -/
def Crosses (type : NativeType) (v : NativeValue) : Prop :=
  Makes (catalog.buildAll v.instances) (catalog.toScript v) fun s w =>
    catalog.toNative r type s w = some (.ok v, w)

variable {catalog r}

theorem Crosses.null {type : NativeType} (h : type.default.isNull = true) :
    catalog.Crosses r type .null := by
  refine Makes.of_pure (s := .undefined) rfl fun w => ?_
  rw [catalog.toNative_of_nullish r type rfl]
  cases type <;> first | rfl | cases h

theorem Crosses.bool (b : Bool) : catalog.Crosses r .bool (.bool b) :=
  Makes.of_pure (s := .bool b) rfl fun _ => rfl

theorem Crosses.int {kind : IntKind} {n : Word kind}
    (h : Word.ofDouble? kind (.ofInt .f64 n.val) = some n) :
    catalog.Crosses r (.int kind) (.int kind n) := by
  refine Makes.of_pure (s := n.toScript) rfl fun w => ?_
  rw [catalog.toNative_int r kind n.toScript_cases.1,
    n.wordOf_toScript catalog (.int kind) h]
  rfl

theorem Crosses.float {kind : FloatKind} (x : Binary kind) :
    catalog.Crosses r (.float kind) (.float kind x) := by
  refine Makes.of_pure (s := .number (x.convert .f64)) rfl fun w => ?_
  rw [catalog.toNative_float r kind rfl, catalog.binaryOf_of_double rfl x.ofDouble?_convert]
  rfl

theorem Crosses.char (c : Char) : catalog.Crosses r .char (.char c) := by
  refine Makes.of_pure (s := .string (String.singleton c)) rfl fun w => ?_
  rw [toNative_char, String.toList_singleton]
  rfl

theorem Crosses.datetime {t : Instant} (h : t.IsWhole) :
    catalog.Crosses r .datetime (.datetime t) := by
  refine Makes.of_pure (s := t.toScript) rfl fun w => ?_
  unfold Instant.toScript
  split
  · next hearliest =>
    rw [catalog.toNative_of_nullish r .datetime rfl, hearliest]
    rfl
  · have hdate : Instant.ofDate (.ofInt .f64 t.millis) = .ok t := by
      rw [Instant.ofDate, Instant.ofDate?_ofInt_millis h]
    rw [toNative_datetime, hdate]
    rfl

theorem Crosses.string (text : String) : catalog.Crosses r .string (.string text) :=
  Makes.of_pure (s := .string text) rfl fun _ => rfl

theorem Crosses.enumeration {d : Enumeration} {raw : Word .i64} (h : d.Settles raw) :
    catalog.Crosses r (.enumeration d) (.enumeration d raw) := by
  obtain ⟨s, hmake, hnullish, hback⟩ := Enumeration.enumerationOf_toScript catalog h
  refine Makes.of_pure (s := s) ?_ fun w => ?_
  · rw [toScript, hmake]
    rfl
  · rw [catalog.toNative_enumeration r d hnullish, hback]
    rfl

/-- A callable crosses as a new function, which is its face. -/
theorem Crosses.callable {shape : Shape} {c : Callable}
    (h : c.shape.same catalog.identity shape = true) :
    catalog.Crosses r (.callable shape) (.callable c) := by
  intro w₀ w₁ w hagree hbuilds
  cases hbuilds
  let face : ScriptFunction := ⟨c.shape.name, .face c⟩
  let w₂ : World := { w with heap := (w.heap.newFunction face).1 }
  refine ⟨.function (w.heap.newFunction face).2, w₂, rfl, hagree.trans (.of_exposer rfl),
    .newFunction w.heap face, fun v hv => ?_⟩
  -- The face is still the face of the callable in every later state.
  have hlt : (w.heap.newFunction face).2.index < w₂.heap.functions.size := by
    simp [w₂, Heap.newFunction]
  have hface : v.heap.function (w.heap.newFunction face).2 = face :=
    (hv.function _ hlt).trans (w.heap.function_newFunction face)
  show catalog.toNative r (.callable shape) (.function _) v = _
  rw [toNative_callable]
  refine map_ok (catalog.callableFor_of_face ?_ h) _
  rw [hface]
  rfl

/-- An instance crosses as a new proxy. -/
theorem Crosses.object {c : ClassRef} {target : Instance}
    (h : catalog.isAssignable target.runtimeClass c = true) :
    catalog.Crosses r (.object c) (.object target) := by
  intro w₀ w₁ w hagree hbuilds
  obtain ⟨_, u, hbuild, hdone⟩ := bind_ok_cases hbuilds
  cases hdone
  obtain ⟨d', u, hbuild, hdone⟩ := bind_ok_cases hbuild
  cases hdone
  -- The definition can be built here since it can be built where the builds are told.
  obtain ⟨d, w₂, hd, hagree₂⟩ := catalog.follows_definitionOf target.runtimeClass hagree hbuild
  let w₃ : World := { w₂ with heap := (w₂.heap.newProxy d target).1 }
  have hnew : w₂.Keeps w₃ := .newObject w₂.heap _
  refine ⟨.object (w₂.heap.newProxy d target).2, w₃, ?_, hagree₂.trans (.of_exposer rfl),
    IsTrans.trans _ _ _ (catalog.keeps_definitionOf _ hd) hnew, fun v hv => ?_⟩
  · rw [toScript, wrapInstance]
    exact (bind_ok hd _).trans rfl
  · have hlt : (w₂.heap.newProxy d target).2.index < w₃.heap.objects.size := by
      simp [w₃, Heap.newProxy, Heap.newObject]
    have hproxy := hv.object _ (catalog.keeps_definitionOf _ hd).objects_le hlt
    show catalog.toNative r (.object c) (.object _) v = _
    rw [toNative_object]
    exact catalog.objectToNative_of_target r
      ((congrArg ScriptObject.target hproxy).trans (w₂.heap.target_newProxy d target)) h

theorem Crosses.array {element : NativeType} {items : List NativeValue}
    (h : ∀ v ∈ items, catalog.Crosses r element v) :
    catalog.Crosses r (.array element) (.array items) := by
  unfold Crosses
  rw [toScript_array, NativeValue.instances, buildAll_items]
  intro w₀ w₁ w hagree hbuilds
  obtain ⟨s, w', hmake, hagree', hkeeps, hholds⟩ := Makes.array h hagree hbuilds
  refine ⟨s, w', hmake, hagree', hkeeps, fun v hv => ?_⟩
  obtain ⟨a, rfl, hitems⟩ := hholds v hv
  rw [toNative_array, bind_ok (ofHeap_apply _ v), bind_ok (mapM_forall₂ (hitems.flip))]
  rfl

theorem Crosses.dictionary {element : NativeType} {entries : List (String × NativeValue)}
    (hkeys : (Keyed.keys entries).Nodup)
    (h : ∀ entry ∈ entries, catalog.Crosses r element entry.2) :
    catalog.Crosses r (.dictionary element) (.dictionary entries) := by
  unfold Crosses
  rw [toScript_dictionary, NativeValue.instances, buildAll_entries]
  intro w₀ w₁ w hagree hbuilds
  obtain ⟨s, w', hmake, hagree', hkeeps, hholds⟩ :=
    Makes.object (fun v => catalog.buildAll v.instances)
      (fun v s w => catalog.toNative r element s w = some (.ok v, w)) h hkeys hagree hbuilds
  refine ⟨s, w', hmake, hagree', hkeeps, fun v hv => ?_⟩
  obtain ⟨o, fields, rfl, hprops, hfields⟩ := hholds v hv
  have hread := r.entries_of_data hprops (Makes.nodup_fields hkeys hfields)
  have hback : List.Forall₂ (fun field entry =>
      (do return (field.1, ← catalog.toNative r element field.2) : Run Error _) v =
        some (.ok entry, v)) fields entries := by
    refine (hfields.imp ?_).flip
    rintro ⟨key, value⟩ ⟨_, s⟩ ⟨rfl, hvalue⟩
    exact map_ok hvalue _
  rw [toNative_dictionary, bind_ok hread, bind_ok (mapM_forall₂ hback)]
  rfl

/-! ## Texts -/

/-- What one text becomes. -/
def textToScript (text : Option String) : ScriptValue := (text.map ScriptValue.string).getD .null

theorem filterMap_scalarText? (texts : List (Option String)) :
    (texts.map textToScript).filterMap ScriptValue.scalarText? = texts := by
  rw [List.filterMap_map]
  have hread : ScriptValue.scalarText? ∘ textToScript = some := by
    funext text
    cases text <;> rfl
  rw [hread, List.filterMap_some]

/-- What the texts under a key become: a single one, or an array of them. -/
def ReadsTexts (texts : List (Option String)) (s : ScriptValue) (w : World) : Prop :=
  (∃ text, texts = [text] ∧ s = textToScript text) ∨
    ∃ a, s = .array a ∧ w.heap.items a = texts.map textToScript

theorem makes_textsToScript (texts : List (Option String)) :
    Makes (pure ()) (textsToScript texts) (ReadsTexts texts) := by
  unfold textsToScript
  split
  · next text => exact Makes.of_pure rfl fun _ => .inl ⟨text, rfl, rfl⟩
  · intro w₀ w₁ w hagree hbuilds
    obtain ⟨s, w', hmake, hagree', hkeeps, hholds⟩ :=
      Makes.newArray (texts.map textToScript) hagree hbuilds
    exact ⟨s, w', hmake, hagree', hkeeps, fun v hv => .inr (hholds v hv)⟩

theorem Crosses.multimap {entries : List (String × List (Option String))}
    (hkeys : (Keyed.keys entries).Nodup) : catalog.Crosses r .multimap (.multimap entries) := by
  intro w₀ w₁ w hagree hbuilds
  cases hbuilds
  -- Texts need no definitions, so their builds do nothing.
  have hnothing : ∀ (l : List (String × List (Option String))) (u : World),
      (l.forM fun _ => (pure () : Run Error Unit)) u = some (.ok (), u) := by
    intro l u
    induction l with
    | nil => rfl
    | cons _ l ih => exact ih
  obtain ⟨s, w', hmake, hagree', hkeeps, hholds⟩ :=
    Makes.object (fun _ => pure ()) ReadsTexts (fun entry _ => makes_textsToScript entry.2) hkeys
      hagree (hnothing entries w₀)
  refine ⟨s, w', by rw [toScript_multimap]; exact hmake, hagree', hkeeps, fun v hv => ?_⟩
  obtain ⟨o, fields, rfl, hprops, hfields⟩ := hholds v hv
  have hread := r.entries_of_data hprops (Makes.nodup_fields hkeys hfields)
  show catalog.toNative r .multimap (.object o) v = _
  rw [toNative_multimap]
  refine map_ok ?_ _
  rw [Reentry.textEntries, bind_ok hread]
  refine (bind_ok (mapM_forall₂
    (show List.Forall₂ _ fields (entries.map some) from ?_)) _).trans ?_
  · rw [List.forall₂_map_right_iff]
    refine (hfields.imp ?_).flip
    rintro ⟨key, texts⟩ ⟨_, s⟩ ⟨rfl, htexts⟩
    -- A single text stands alone, and reads back as a list of one.
    rcases htexts with ⟨text, rfl, rfl⟩ | ⟨a, rfl, hitems⟩
    · cases text <;> rfl
    · refine (bind_ok (ofHeap_apply _ v) _).trans ?_
      rw [hitems, filterMap_scalarText?]
      rfl
  · rw [List.filterMap_map, Function.id_comp, List.filterMap_some]
    rfl

/-- Every value that settles crosses and comes back. -/
theorem crosses_of_settled {type : NativeType} {v : NativeValue} (h : catalog.Settled type v) :
    catalog.Crosses r type v := by
  induction h with
  | null h => exact .null h
  | bool b => exact .bool b
  | int h => exact .int h
  | float x => exact .float x
  | char c => exact .char c
  | datetime h => exact .datetime h
  | string text => exact .string text
  | enumeration h => exact .enumeration h
  | array _ ih => exact .array ih
  | dictionary hkeys _ ih => exact .dictionary hkeys ih
  | multimap hkeys => exact .multimap hkeys
  | callable h => exact .callable h
  | object h => exact .object h

/-- A value of a type that converts both ways settles when nothing about it is lost. -/
theorem settled_of_lossless {type : NativeType} {v : NativeValue} (hv : catalog.Inhabits type v)
    (htype : type.isTwoWay = true) (hl : catalog.Lossless type v) : catalog.Settled type v := by
  induction hv with
  | void => cases htype
  | any => cases htype
  | null h => exact .null h
  | bool b => exact .bool b
  | int n => exact .int (n.ofDouble?_ofInt (n.natAbs_le hl))
  | float x => exact .float x
  | char c => exact .char c
  | datetime t => exact .datetime hl
  | string text => exact .string text
  | enumeration d raw => exact .enumeration hl.settles
  | array _ ih => exact .array fun v hv => ih v hv htype (hl v hv)
  | sequence => cases htype
  | dictionary _ ih => exact .dictionary hl.1 fun entry he => ih entry he htype (hl.2 entry he)
  | multimap entries => exact .multimap hl
  | callable shape c => exact .callable hl
  | json => cases htype
  | object h => exact .object h

/-- Every value of a type that converts both ways crosses and comes back, when nothing about it is
lost. -/
theorem crosses_of_inhabits {type : NativeType} {v : NativeValue} (hv : catalog.Inhabits type v)
    (htype : type.isTwoWay = true) (hl : catalog.Lossless type v) :
    catalog.Crosses r type v :=
  crosses_of_settled (settled_of_lossless hv htype hl)

/-- A native value of a type that converts both ways crosses to scripts and, converted to its type,
comes back as it was, without a change of state on the way back. -/
theorem toNative_toScript (catalog : Catalog) (r : Reentry) {type : NativeType} {v : NativeValue}
    (htype : type.isTwoWay = true) (hv : catalog.Inhabits type v) (hl : catalog.Lossless type v)
    {w : World} (hbuilds : ∃ w₁, catalog.buildAll v.instances w = some (.ok (), w₁)) :
    ∃ s w', catalog.toScript v w = some (.ok s, w') ∧
      catalog.toNative r type s w' = some (.ok v, w') := by
  obtain ⟨w₁, hbuilds⟩ := hbuilds
  obtain ⟨s, w', hmake, -, -, hback⟩ := crosses_of_inhabits hv htype hl (.refl w) hbuilds
  exact ⟨s, w', hmake, hback w' (Heap.Keeps.refl _ _)⟩

/-- One class of lamps, which scripts can switch. -/
def lamps : Catalog where
  decls :=
    [{ (default : ClassDecl) with
        identity := ⟨1⟩, name := "Lamp",
        methods := [⟨"Switch", [.fixed "on" .bool], .void, some (.function (some "switch")),
          some fun _ _ => .done (.ok .null)⟩] }]
  restsOn := by decide

/-- Lamps by room, as a type. -/
def rooms : NativeType := .dictionary (.array (.object ⟨0⟩))

/-- Two rooms, one with a lamp and a gap and one without anything. -/
def house : NativeValue :=
  .dictionary [("hall", .array [.object ⟨1, ⟨0⟩⟩, .null]), ("cellar", .null)]

/-- The lamps in a house come back. -/
theorem house_comes_back :
    ∃ s w', lamps.toScript house {} = some (.ok s, w') ∧
      lamps.toNative (lamps.reentry 1) rooms s w' = some (.ok house, w') := by
  have hlamp : lamps.Inhabits (.object ⟨0⟩) (.object ⟨1, ⟨0⟩⟩) := .object rfl
  have hhall : lamps.Inhabits (.array (.object ⟨0⟩)) (.array [.object ⟨1, ⟨0⟩⟩, .null]) := by
    refine .array ?_
    simp only [List.forall_mem_cons]
    exact ⟨hlamp, .null rfl, List.forall_mem_nil _⟩
  have hhouse : lamps.Inhabits rooms house := by
    refine .dictionary ?_
    simp only [List.forall_mem_cons]
    exact ⟨hhall, .null rfl, List.forall_mem_nil _⟩
  have hlossless : lamps.Lossless rooms house := by
    refine ⟨by decide, ?_⟩
    simp only [List.forall_mem_cons]
    refine ⟨?_, trivial, List.forall_mem_nil _⟩
    intro v _
    cases v <;> trivial
  exact toNative_toScript lamps (lamps.reentry 1) rfl hhouse hlossless ⟨_, rfl⟩

end Catalog

end ScriptBoundary
