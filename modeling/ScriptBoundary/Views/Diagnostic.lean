import ScriptBoundary.Calendar
import ScriptBoundary.Classes.Catalog
import ScriptBoundary.Number.Decimal
import ScriptBoundary.Store.Heap
import ScriptBoundary.Text

/-!
# Diagnostic views

Values as a programmer wants to see them: texts quoted, arrays written out, objects and functions by
name only.
-/

namespace ScriptBoundary

/-- A list in brackets. -/
def bracketed (items : List String) : String := "[" ++ String.intercalate ", " items ++ "]"

/-- The view of a script value. The number bounds the depth of arrays. -/
def Heap.describe (h : Heap) : Nat → ScriptValue → Option String
  | 0, _ => none
  | _, .undefined => some "undefined"
  | _, .null => some "null"
  | _, .bool b => some (if b then "true" else "false")
  | _, .int n => some (toString n.val)
  | _, .uint n => some (toString n.val ++ "u")
  | _, .number x => some (Layout.diagnostic.render x)
  | _, .string text => some (Text.quoted text)
  | _, .date millis => some ("Date(" ++ Layout.plain.render millis ++ ")")
  | n + 1, .array a => ((h.items a).mapM (describe h n)).map bracketed
  | _, .object o => some ("[object " ++ (h.object o).className ++ "]")
  | _, .function f => some ("[function " ++ (h.function f).name ++ "]")

/-- The name of a kind of native value, with a value behind it. -/
def tagged (tag value : String) : String := tag ++ "(" ++ value ++ ")"

/-- An entry of a native collection with text keys. -/
def pairView (key value : String) : String := "(" ++ Text.quoted key ++ ", " ++ value ++ ")"

/-- The tag of an integer kind. -/
def IntKind.tag : IntKind → String
  | .i8 => "I8"
  | .u8 => "U8"
  | .i16 => "I16"
  | .u16 => "U16"
  | .i32 => "I32"
  | .u32 => "U32"
  | .i64 => "I64"
  | .u64 => "U64"

/-- The tag of a floating-point width. -/
def FloatKind.tag : FloatKind → String
  | .f32 => "F32"
  | .f64 => "F64"

/-- The view of a text of a multimap, which may be missing. -/
def optionalView : Option String → String
  | none => "None"
  | some text => tagged "Some" (Text.quoted text)

namespace Catalog

variable (catalog : Catalog) (h : Heap) (depth : Nat)

mutual

/-- The view of a native value. -/
def describe : NativeValue → Option String
  | .null => some "Null"
  | .bool b => some (tagged "Bool" (if b then "true" else "false"))
  | .int kind n => some (tagged kind.tag (toString n.val))
  | .float kind x => some (tagged kind.tag (Layout.diagnostic.render x))
  | .char c => some (tagged "Char" (Text.quotedChar c))
  | .datetime t => some (tagged "DateTime" (t.text .needed "Z"))
  | .string text => some (tagged "String" (Text.quoted text))
  | .enumeration d raw => some (tagged "Enum" (Text.quoted d.name ++ ", " ++ toString raw.val))
  | .array items => (describeAll items).map fun items => tagged "Array" (bracketed items)
  | .sequence items => (describeAll items).map fun items => tagged "Sequence" (bracketed items)
  | .dictionary entries =>
    (describeEntries entries).map fun entries => tagged "Dictionary" (bracketed entries)
  | .multimap entries => some (tagged "MultiMap" (bracketed (entries.map fun (key, texts) =>
      pairView key (bracketed (texts.map optionalView)))))
  | .callable c => some (tagged "Callable" (Text.quoted c.shape.name))
  | .json text => some (tagged "Json" (Text.quoted text))
  | .object target => some (tagged "Object" (Text.quoted (catalog.name target.runtimeClass)))
  | .script value => (h.describe depth value).map (tagged "Script")

/-- The views of the items of a collection. -/
def describeAll : List NativeValue → Option (List String)
  | [] => some []
  | item :: rest => do return (← describe item) :: (← describeAll rest)

/-- The views of the entries of a dictionary. -/
def describeEntries : List (String × NativeValue) → Option (List String)
  | [] => some []
  | (key, value) :: rest => do return pairView key (← describe value) :: (← describeEntries rest)

end

end Catalog

end ScriptBoundary
