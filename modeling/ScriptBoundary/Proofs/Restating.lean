import ScriptBoundary.Proofs.Conformance
import ScriptBoundary.Proofs.Quantities

/-!
# Results restated in their declared type

The check of a result against its declared type does not only accept or refuse, it also gives
another value: a number in the declared width, a value of the declared enumeration, a sequence in
place of an array. `Restates` says, without the check, which values may stand for which. A value
passes exactly where some value of the type restates it, and becomes such a value
(`passes_exactly_where_restated`); for numbers this comes down to what the two of them denote
(`widths_change_without_loss`).
-/

namespace ScriptBoundary

/-- The type is one of numbers. -/
def NativeType.isNumeric : NativeType → Bool
  | int _ | float _ => true
  | _ => false

/-- The second value says what the first does. A number is restated by one that denotes the same and
by the value of an enumeration that stands for it, the value of an enumeration by that of one with
the same name, an array by an array or a sequence of as many items in the same order, a dictionary
by one with the same keys in the same order. -/
inductive Restates : NativeValue → NativeValue → Prop
  | refl (v : NativeValue) : Restates v v
  | number {v w : NativeValue} {q : Quantity} (hv : v.quantity? = some q)
      (hw : w.quantity? = some q) : Restates v w
  | value {v : NativeValue} (d : Enumeration) {raw : Word .i64}
      (hv : v.quantity? = some (.ofInt raw.val)) : Restates v (.enumeration d raw)
  | enumeration {actual d : Enumeration} (raw : Word .i64) (name : actual.name = d.name) :
      Restates (.enumeration actual raw) (.enumeration d raw)
  | array {pairs : List (NativeValue × NativeValue)} (h : ∀ p ∈ pairs, Restates p.1 p.2) :
      Restates (.array (pairs.map (·.1))) (.array (pairs.map (·.2)))
  | sequence {v : NativeValue} {pairs : List (NativeValue × NativeValue)}
      (items : v = .array (pairs.map (·.1)) ∨ v = .sequence (pairs.map (·.1)))
      (h : ∀ p ∈ pairs, Restates p.1 p.2) : Restates v (.sequence (pairs.map (·.2)))
  | dictionary {entries : List (String × NativeValue × NativeValue)}
      (h : ∀ e ∈ entries, Restates e.2.1 e.2.2) :
      Restates (.dictionary (entries.map fun e => (e.1, e.2.1)))
        (.dictionary (entries.map fun e => (e.1, e.2.2)))

namespace Catalog

variable {catalog : Catalog}

/-! ## The check, by the form of the type -/

theorem conform_int (kind : IntKind) (v : NativeValue) :
    catalog.conform (.int kind) v =
      catalog.conformNumber (.int kind) v fun n => (n.toWord? kind).map (.int kind) := by
  unfold conform
  exact if_neg fun h => Bool.false_ne_true (Bool.and_eq_true_iff.1 h).2

theorem conform_float (kind : FloatKind) (v : NativeValue) :
    catalog.conform (.float kind) v =
      catalog.conformNumber (.float kind) v fun n => (n.toBinary? kind).map (.float kind) := by
  unfold conform
  exact if_neg fun h => Bool.false_ne_true (Bool.and_eq_true_iff.1 h).2

theorem conform_enumeration {d actual : Enumeration} (raw : Word .i64)
    (name : actual.name = d.name) :
    catalog.conform (.enumeration d) (.enumeration actual raw) = .ok (.enumeration d raw) :=
  if_pos name

theorem conform_array (element : NativeType) (items : List NativeValue) :
    catalog.conform (.array element) (.array items) =
      (items.mapM (catalog.conform element)).map .array := rfl

theorem conform_sequence (element : NativeType) {v : NativeValue} {items : List NativeValue}
    (h : v = .array items ∨ v = .sequence items) :
    catalog.conform (.sequence element) v =
      (items.mapM (catalog.conform element)).map .sequence := by
  rcases h with rfl | rfl <;> rfl

theorem conform_dictionary (element : NativeType) (entries : List (String × NativeValue)) :
    catalog.conform (.dictionary element) (.dictionary entries) =
      (entries.mapM fun entry =>
        (catalog.conform element entry.2).map (entry.1, ·)).map .dictionary := rfl

/-! ## Numbers -/

/-- The function expresses the numbers that values of the type denote, each by a value that denotes
it. -/
structure Expresses (catalog : Catalog) (type : NativeType)
    (express : Numeric → Option NativeValue) : Prop where
  sound {a : Numeric} {w : NativeValue} :
    express a = some w → catalog.Inhabits type w ∧ w.quantity? = some a.quantity
  complete {a : Numeric} {w : NativeValue} :
    catalog.Inhabits type w → w.quantity? = some a.quantity → ∃ u, express a = some u

theorem expresses_int (kind : IntKind) :
    catalog.Expresses (.int kind) fun a => (a.toWord? kind).map (.int kind) where
  sound h := by
    obtain ⟨n, hn, rfl⟩ := Option.map_eq_some_iff.1 h
    exact ⟨.int n, congrArg some (Numeric.toWord?_eq_some_iff.1 hn).symm⟩
  complete hw hq := by
    cases hw with
    | null h => cases h
    | int n =>
      have hn := Numeric.toWord?_eq_some_iff.2 (Option.some.inj hq).symm
      exact ⟨.int kind n, Option.map_eq_some_iff.2 ⟨n, hn, rfl⟩⟩

theorem expresses_float (kind : FloatKind) :
    catalog.Expresses (.float kind) fun a => (a.toBinary? kind).map (.float kind) where
  sound h := by
    obtain ⟨x, hx, rfl⟩ := Option.map_eq_some_iff.1 h
    exact ⟨.float x, congrArg some (Numeric.quantity_of_toBinary? hx)⟩
  complete hw hq := by
    cases hw with
    | null h => cases h
    | float y =>
      obtain ⟨x, hx⟩ := Numeric.exists_toBinary? (Option.some.inj hq)
      exact ⟨.float kind x, Option.map_eq_some_iff.2 ⟨x, hx, rfl⟩⟩

/-- A type of numbers checks a value by expressing its number. -/
theorem exists_expresses (catalog : Catalog) {type : NativeType} (htype : type.isNumeric = true) :
    ∃ express, catalog.Expresses type express ∧
      ∀ v, catalog.conform type v = catalog.conformNumber type v express := by
  cases type with
  | int kind => exact ⟨_, expresses_int kind, conform_int kind⟩
  | float kind => exact ⟨_, expresses_float kind, conform_float kind⟩
  | _ => cases htype

/-- A number passes as what expresses it, or is out of range. -/
theorem conformNumber_of_numeric {type : NativeType} {v : NativeValue} {a : Numeric}
    {express : Numeric → Option NativeValue} (ha : Numeric.of? v = some a) :
    catalog.conformNumber type v express =
      (express a).elim (.error (catalog.outOfRange type a.text)) .ok := by
  rw [conformNumber, ha]
  cases h : express a <;> simp only [h, Option.elim]

/-- A number passes against a type of numbers as a value that denotes the same; where the type has
none it is out of range. -/
theorem conform_numeric_cases (catalog : Catalog) {type : NativeType} {v : NativeValue}
    {q : Quantity} (htype : type.isNumeric = true) (hv : v.quantity? = some q) :
    (∃ w, catalog.conform type v = .ok w ∧ catalog.Inhabits type w ∧ w.quantity? = some q) ∨
    (∃ a, Numeric.of? v = some a ∧
        catalog.conform type v = .error (catalog.outOfRange type a.text)) ∧
      ¬ ∃ w, catalog.Inhabits type w ∧ w.quantity? = some q := by
  obtain ⟨express, hexpress, hconform⟩ := exists_expresses catalog htype
  rw [Numeric.quantity?_eq] at hv
  obtain ⟨a, ha, rfl⟩ := Option.map_eq_some_iff.1 hv
  rw [hconform v, conformNumber_of_numeric ha]
  cases hw : express a with
  | some w => exact .inl ⟨w, rfl, hexpress.sound hw⟩
  | none =>
    refine .inr ⟨⟨a, ha, rfl⟩, fun ⟨w, hinhabits, hq⟩ => ?_⟩
    obtain ⟨u, hu⟩ := hexpress.complete hinhabits hq
    rw [hw] at hu
    cases hu

/-- A result changes its width only where nothing is lost, and wherever nothing is lost. A number
that passes against a type of numbers passes as a number of the type that denotes the same; it fails
just where no number of the type denotes it, and is out of range then. -/
theorem widths_change_without_loss (catalog : Catalog) {type : NativeType} {v : NativeValue}
    {q : Quantity} (htype : type.isNumeric = true) (hv : v.quantity? = some q) :
    (∀ w, catalog.conform type v = .ok w → catalog.Inhabits type w ∧ w.quantity? = some q) ∧
    ((∃ e, catalog.conform type v = .error e) ↔
      ¬ ∃ w, catalog.Inhabits type w ∧ w.quantity? = some q) ∧
    (∀ e, catalog.conform type v = .error e →
      ∃ a, Numeric.of? v = some a ∧ e = catalog.outOfRange type a.text) := by
  rcases conform_numeric_cases catalog htype hv with ⟨u, hu, hof⟩ | ⟨⟨a, ha, hfail⟩, hnone⟩
  · rw [hu]
    refine ⟨fun w hw => ?_, ⟨nofun, fun hnone => (hnone ⟨u, hof⟩).elim⟩, nofun⟩
    cases hw
    exact hof
  · rw [hfail]
    refine ⟨nofun, ⟨fun _ => hnone, fun _ => ⟨_, rfl⟩⟩, fun e he => ?_⟩
    cases he
    exact ⟨a, ha, rfl⟩

/-- A count of sixty-four bits. -/
def count (n : Int) : NativeValue := .int .i64 (.clamp .i64 n)

/-- Past `2 ^ 24` every other count is that of no single, and fails as one; the next passes. -/
theorem counts_lose_nothing :
    (¬ ∃ w, empty.Inhabits (.float .f32) w ∧ w.quantity? = some (.ofInt (2 ^ 24 + 1))) ∧
    ∃ w, empty.conform (.float .f32) (count (2 ^ 24 + 2)) = .ok w ∧
      w.quantity? = some (.ofInt (2 ^ 24 + 2)) := by
  constructor
  · cases h : empty.conform (.float .f32) (count (2 ^ 24 + 1)) with
    | error e => exact (widths_change_without_loss empty rfl rfl).2.1.1 ⟨e, h⟩
    | ok w =>
      have hrefused : (empty.conform (.float .f32) (count (2 ^ 24 + 1))).toBool = false := by
        decide +kernel
      rw [h] at hrefused
      cases hrefused
  · cases h : empty.conform (.float .f32) (count (2 ^ 24 + 2)) with
    | ok w => exact ⟨w, rfl, ((widths_change_without_loss empty rfl rfl).1 w h).2⟩
    | error e =>
      have hpasses : (empty.conform (.float .f32) (count (2 ^ 24 + 2))).toBool = true := by
        decide +kernel
      rw [h] at hpasses
      cases hpasses

/-! ## All values -/

/-- What a value passes as is of the type and restates it. -/
theorem Conforms.restates {type : NativeType} {v w : NativeValue}
    (h : catalog.Conforms type v w) : catalog.Inhabits type w ∧ Restates v w := by
  induction h with
  | void v => exact ⟨.void v, .refl v⟩
  | any v => exact ⟨.any v, .refl v⟩
  | null h => exact ⟨.null h, .refl _⟩
  | bool b => exact ⟨.bool b, .refl _⟩
  | char c => exact ⟨.char c, .refl _⟩
  | datetime t => exact ⟨.datetime t, .refl _⟩
  | string text => exact ⟨.string text, .refl _⟩
  | multimap entries => exact ⟨.multimap entries, .refl _⟩
  | json text => exact ⟨.json text, .refl _⟩
  | callable shape c => exact ⟨.callable shape c, .refl _⟩
  | @int kind v a n hof held =>
    have hv := Numeric.quantity?_of_number hof
    rw [Numeric.toWord?_eq_some_iff.1 held] at hv
    exact ⟨.int n, .number hv rfl⟩
  | @float kind v a x hof held =>
    have hv := Numeric.quantity?_of_number hof
    rw [← Numeric.quantity_of_toBinary? held] at hv
    exact ⟨.float x, .number hv rfl⟩
  | @enumeration d actual raw name => exact ⟨.enumeration d raw, .enumeration raw name⟩
  | @number d v a raw hof held =>
    have hv := Numeric.quantity?_of_number hof
    rw [Numeric.toWord?_eq_some_iff.1 held] at hv
    exact ⟨.enumeration d raw, .value d hv⟩
  | array _ ih =>
    exact ⟨.array (List.forall_mem_map.2 fun p hp => (ih p hp).1), .array fun p hp => (ih p hp).2⟩
  | sequence items _ ih =>
    exact ⟨.sequence (List.forall_mem_map.2 fun p hp => (ih p hp).1),
      .sequence items fun p hp => (ih p hp).2⟩
  | dictionary _ ih =>
    exact ⟨.dictionary (List.forall_mem_map.2 fun e he => (ih e he).1),
      .dictionary fun e he => (ih e he).2⟩
  | object h => exact ⟨.object h, .refl _⟩

/-- The value of an enumeration passes against one of the same name, and so does an integer. -/
theorem exists_conform_enumeration {d : Enumeration} {v : NativeValue} {raw : Word .i64}
    (h : v.quantity? = some (.ofInt raw.val) ∨
      ∃ actual, v = .enumeration actual raw ∧ actual.name = d.name) :
    ∃ u, catalog.conform (.enumeration d) v = .ok u := by
  rcases h with hv | ⟨actual, rfl, hname⟩
  · rw [Numeric.quantity?_eq] at hv
    obtain ⟨a, ha, hq⟩ := Option.map_eq_some_iff.1 hv
    have hnumber : catalog.conform (.enumeration d) v = catalog.conformNumber (.enumeration d) v
        fun n => (n.toWord? .i64).map (.enumeration d) := by
      cases v with
      | int | float => rfl
      | _ => cases ha
    rw [hnumber, conformNumber_of_numeric ha, Numeric.toWord?_eq_some_iff.2 hq]
    exact ⟨_, rfl⟩
  · exact ⟨.enumeration d raw, conform_enumeration raw hname⟩

/-- Items pass where each passes for being restated by its partner. -/
theorem exists_mapM_conform {element : NativeType} {pairs : List (NativeValue × NativeValue)}
    (h : ∀ p ∈ pairs, catalog.Inhabits element p.2 → ∃ u, catalog.conform element p.1 = .ok u)
    (items : ∀ w ∈ pairs.map (·.2), catalog.Inhabits element w) :
    ∃ us, (pairs.map (·.1)).mapM (catalog.conform element) = .ok us := by
  refine exists_mapM_eq_ok (List.forall_mem_map.2 fun p hp => ?_)
  exact h p hp (List.forall_mem_map.1 items p hp)

/-- A value that some value of the type restates passes. -/
theorem exists_conform_of_restates {type : NativeType} {v w : NativeValue} (h : Restates v w)
    (hw : catalog.Inhabits type w) : ∃ u, catalog.conform type v = .ok u := by
  induction h generalizing type with
  | refl v => exact ⟨v, conform_of_inhabits hw⟩
  | @number v w q hv hq =>
    have hnumeric : type.isNumeric = true → ∃ u, catalog.conform type v = .ok u := by
      intro htype
      rcases conform_numeric_cases catalog htype hv with ⟨u, hu, -⟩ | ⟨-, hnone⟩
      · exact ⟨u, hu⟩
      · exact (hnone ⟨w, hw, hq⟩).elim
    cases hw with
    | void | any => exact ⟨_, conform_of_inhabits (by constructor)⟩
    | int | float => exact hnumeric rfl
    | _ => cases hq
  | @value v d raw hv =>
    cases hw with
    | void | any => exact ⟨_, conform_of_inhabits (by constructor)⟩
    | enumeration => exact exists_conform_enumeration (.inl hv)
  | @enumeration actual d raw name =>
    cases hw with
    | void | any => exact ⟨_, conform_of_inhabits (by constructor)⟩
    | enumeration => exact exists_conform_enumeration (.inr ⟨actual, rfl, name⟩)
  | @array pairs _ ih =>
    cases hw with
    | void | any => exact ⟨_, conform_of_inhabits (by constructor)⟩
    | @array element _ hitems =>
      obtain ⟨us, hus⟩ := exists_mapM_conform (fun p hp hitem => ih p hp hitem) hitems
      exact ⟨.array us, by rw [conform_array, hus]; rfl⟩
  | @sequence v pairs items _ ih =>
    cases hw with
    | void | any => exact ⟨_, conform_of_inhabits (by constructor)⟩
    | @sequence element _ hitems =>
      obtain ⟨us, hus⟩ := exists_mapM_conform (fun p hp hitem => ih p hp hitem) hitems
      exact ⟨.sequence us, by rw [conform_sequence element items, hus]; rfl⟩
  | @dictionary entries _ ih =>
    cases hw with
    | void | any => exact ⟨_, conform_of_inhabits (by constructor)⟩
    | @dictionary element _ hitems =>
      obtain ⟨us, hus⟩ := exists_mapM_eq_ok
        (f := fun entry => (catalog.conform element entry.2).map (entry.1, ·))
        (l := entries.map fun e => (e.1, e.2.1))
        (List.forall_mem_map.2 fun e he => by
          obtain ⟨u, hu⟩ := ih e he (List.forall_mem_map.1 hitems e he)
          exact ⟨(e.1, u), by rw [hu]; rfl⟩)
      exact ⟨.dictionary us, by rw [conform_dictionary, hus]; rfl⟩

/-- The check of results is sound, complete and idempotent. What a value passes as is of the type at
every depth, restates the value and passes as it is; a value passes if some value of the type
restates it; and it passes as it is if it is of the type. -/
theorem passes_exactly_where_restated (catalog : Catalog) (type : NativeType) (v : NativeValue) :
    (∀ w, catalog.conform type v = .ok w →
      catalog.Inhabits type w ∧ Restates v w ∧ catalog.conform type w = .ok w) ∧
    ((∃ w, catalog.Inhabits type w ∧ Restates v w) → ∃ w, catalog.conform type v = .ok w) ∧
    (catalog.Inhabits type v → catalog.conform type v = .ok v) := by
  refine ⟨fun w h => ?_, fun ⟨w, hw, h⟩ => exists_conform_of_restates h hw, conform_of_inhabits⟩
  obtain ⟨hw, hrestates⟩ := (conforms_of_conform h).restates
  exact ⟨hw, hrestates, conform_of_inhabits hw⟩

/-- The states of a signal. -/
def signal : Enumeration :=
  ⟨"Signal", false, .u8, [("Stop", .clamp .i64 1), ("Go", .clamp .i64 2)]⟩

/-- Signals as host code may hand them back: one by its number, one of another definition. -/
def signalsGiven : NativeValue :=
  .array [.dictionary [("north", .int .u8 (.clamp .u8 1)),
    ("south", .enumeration { signal with variants := [] } (.clamp .i64 2))]]

/-- The signals as the type has them. -/
def signalsRestated : NativeValue :=
  .sequence [.dictionary [("north", .enumeration signal (.clamp .i64 1)),
    ("south", .enumeration signal (.clamp .i64 2))]]

/-- Signals that are given otherwise pass as signals, which restate what was given and pass
unchanged. -/
theorem signals_restated :
    let type : NativeType := .sequence (.dictionary (.enumeration signal))
    empty.conform type signalsGiven = .ok signalsRestated ∧
      empty.Inhabits type signalsRestated ∧ Restates signalsGiven signalsRestated ∧
      empty.conform type signalsRestated = .ok signalsRestated ∧
      ∃ w, empty.conform type signalsGiven = .ok w := by
  intro type
  have hgiven : empty.conform type signalsGiven = .ok signalsRestated := rfl
  obtain ⟨hsound, hcomplete, -⟩ := passes_exactly_where_restated empty type signalsGiven
  obtain ⟨hinhabits, hrestates, -⟩ := hsound signalsRestated hgiven
  obtain ⟨-, -, hkeeps⟩ := passes_exactly_where_restated empty type signalsRestated
  exact ⟨hgiven, hinhabits, hrestates, hkeeps hinhabits, hcomplete ⟨_, hinhabits, hrestates⟩⟩

end Catalog

end ScriptBoundary
