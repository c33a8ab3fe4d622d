import ScriptBoundary.Classes.Catalog
import ScriptBoundary.Keyed
import ScriptBoundary.Proofs.Exactness

/-!
# Values of a type

`Inhabits` says which native values are of a type, at every depth: a number of the very width, a
value of the very enumeration, an instance whose class is assignable. Null stands in wherever it is
the default of the type. `Lossless` says which of them a crossing to scripts keeps apart from all
others, for the types that convert both ways (`NativeType.isTwoWay`). `Settled` says which of them
are read back from what they become there; it asks less, as a number that is rounded on the way may
be rounded back.
-/

namespace ScriptBoundary

namespace Catalog

variable (catalog : Catalog)

/-- A native value is of a type. -/
inductive Inhabits : NativeType → NativeValue → Prop
  | void (v : NativeValue) : Inhabits .void v
  | any (v : NativeValue) : Inhabits .any v
  | null {type : NativeType} (h : type.default.isNull = true) : Inhabits type .null
  | bool (b : Bool) : Inhabits .bool (.bool b)
  | int {kind : IntKind} (n : Word kind) : Inhabits (.int kind) (.int kind n)
  | float {kind : FloatKind} (x : Binary kind) : Inhabits (.float kind) (.float kind x)
  | char (c : Char) : Inhabits .char (.char c)
  | datetime (t : Instant) : Inhabits .datetime (.datetime t)
  | string (text : String) : Inhabits .string (.string text)
  | enumeration (d : Enumeration) (raw : Word .i64) :
      Inhabits (.enumeration d) (.enumeration d raw)
  | array {element : NativeType} {items : List NativeValue}
      (h : ∀ v ∈ items, Inhabits element v) : Inhabits (.array element) (.array items)
  | sequence {element : NativeType} {items : List NativeValue}
      (h : ∀ v ∈ items, Inhabits element v) : Inhabits (.sequence element) (.sequence items)
  | dictionary {element : NativeType} {entries : List (String × NativeValue)}
      (h : ∀ entry ∈ entries, Inhabits element entry.2) :
      Inhabits (.dictionary element) (.dictionary entries)
  | multimap (entries : List (String × List (Option String))) :
      Inhabits .multimap (.multimap entries)
  | callable (shape : Shape) (c : Callable) : Inhabits (.callable shape) (.callable c)
  | json (text : String) : Inhabits .json (.json text)
  | object {c : ClassRef} {target : Instance}
      (h : catalog.isAssignable target.runtimeClass c = true) :
      Inhabits (.object c) (.object target)

end Catalog

/-- The type converts both ways, at every depth. -/
def NativeType.isTwoWay : NativeType → Bool
  | void | any | json | sequence _ => false
  | array inner | dictionary inner => inner.isTwoWay
  | bool | int _ | float _ | char | datetime | string | enumeration _ | multimap | callable _
  | object _ => true

/-- The value of an enumeration has a form on the script side that tells it: one of flags fits the
representation, and a double if that is what it becomes; any other is that of a variant, and no two
variants have one name. -/
structure Enumeration.Tells (d : Enumeration) (raw : Word .i64) : Prop where
  fits : d.flags = true → d.repr.kind.min ≤ raw.val ∧ raw.val ≤ d.repr.kind.max
  exact : d.flags = true → d.repr = .i64 → raw.val.natAbs ≤ 2 ^ 53
  named : d.flags = false → raw ∈ d.variants.map (·.2)
  distinct : d.flags = false → (d.variants.map (·.1)).Nodup

/-- The value of an enumeration is what its form on the script side is read as: one of flags fits the
representation and is read back from its double; any other is that of a variant, and no two variants
have one name. -/
structure Enumeration.Settles (d : Enumeration) (raw : Word .i64) : Prop where
  fits : d.flags = true → d.repr.kind.min ≤ raw.val ∧ raw.val ≤ d.repr.kind.max
  back : d.flags = true → Word.ofDouble? .i64 (.ofInt .f64 raw.val) = some raw
  named : d.flags = false → raw ∈ d.variants.map (·.2)
  distinct : d.flags = false → (d.variants.map (·.1)).Nodup

namespace Catalog

variable (catalog : Catalog)

/-- A native value is of a type, and is read back from what it becomes on the script side. -/
inductive Settled : NativeType → NativeValue → Prop
  | null {type : NativeType} (h : type.default.isNull = true) : Settled type .null
  | bool (b : Bool) : Settled .bool (.bool b)
  | int {kind : IntKind} {n : Word kind} (h : Word.ofDouble? kind (.ofInt .f64 n.val) = some n) :
      Settled (.int kind) (.int kind n)
  | float {kind : FloatKind} (x : Binary kind) : Settled (.float kind) (.float kind x)
  | char (c : Char) : Settled .char (.char c)
  | datetime {t : Instant} (h : t.IsWhole) : Settled .datetime (.datetime t)
  | string (text : String) : Settled .string (.string text)
  | enumeration {d : Enumeration} {raw : Word .i64} (h : d.Settles raw) :
      Settled (.enumeration d) (.enumeration d raw)
  | array {element : NativeType} {items : List NativeValue} (h : ∀ v ∈ items, Settled element v) :
      Settled (.array element) (.array items)
  | dictionary {element : NativeType} {entries : List (String × NativeValue)}
      (keys : (Keyed.keys entries).Nodup) (h : ∀ entry ∈ entries, Settled element entry.2) :
      Settled (.dictionary element) (.dictionary entries)
  | multimap {entries : List (String × List (Option String))}
      (keys : (Keyed.keys entries).Nodup) : Settled .multimap (.multimap entries)
  | callable {shape : Shape} {c : Callable} (h : c.shape.same catalog.identity shape = true) :
      Settled (.callable shape) (.callable c)
  | object {c : ClassRef} {target : Instance}
      (h : catalog.isAssignable target.runtimeClass c = true) :
      Settled (.object c) (.object target)

/-- Nothing about the value is lost on the script side. -/
def Lossless : NativeType → NativeValue → Prop
  | .int kind, .int _ n => kind = .i64 ∨ kind = .u64 → n.val.natAbs ≤ 2 ^ 53
  | .datetime, .datetime t => t.IsWhole
  | .enumeration d, .enumeration _ raw => d.Tells raw
  | .array element, .array items => ∀ v ∈ items, Lossless element v
  | .dictionary element, .dictionary entries =>
    (Keyed.keys entries).Nodup ∧ ∀ entry ∈ entries, Lossless element entry.2
  | .multimap, .multimap entries => (Keyed.keys entries).Nodup
  | .callable shape, .callable c => c.shape.same catalog.identity shape
  | _, _ => True

end Catalog

end ScriptBoundary
