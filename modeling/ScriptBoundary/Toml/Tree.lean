import ScriptBoundary.Keyed

/-!
# TOML trees

The values of a TOML document. A table remembers how it came to be, because that decides what may be
added to it later: a table with a header of its own or written inline is closed to dotted keys, one
made on the way to another is open until a header names it.
-/

namespace ScriptBoundary

/-- How a table of a document came to be. -/
inductive TableOrigin where
  /-- Named by a header, or the whole document. -/
  | header
  /-- Made on the way to a table with a header. -/
  | implied
  /-- Made by a dotted key. -/
  | dotted
  | inline
deriving DecidableEq, Repr

/-- A TOML value. -/
inductive Toml where
  | text (value : String)
  | flag (value : Bool)
  /-- A word in the place of a number, and whether it is one within reach of the widest types. -/
  | number (fits : Bool)
  | datetime
  | array (items : List Toml)
  /-- An array whose items are tables with headers. -/
  | tables (items : List Toml)
  | table (origin : TableOrigin) (entries : List (String × Toml))

namespace Toml

instance : Inhabited Toml := ⟨.table .header []⟩

/-- A change of the last item of a list. -/
def onLast (f : Toml → Option Toml) : List Toml → Option (List Toml)
  | [] => none
  | [item] => (f item).map ([·])
  | item :: rest => (onLast f rest).map (item :: ·)

/-- Changes the table at the end of a path. Missing tables are made; an array of tables is entered
at its last item. By a dotted key only tables are entered that dotted keys or headers of other
tables made; inline tables are never entered. -/
def descend (dotted : Bool) (f : Toml → Option Toml) : List String → Toml → Option Toml
  | [], t => f t
  | key :: path, .table origin entries =>
    let enter := descend dotted f path
    let child := match Keyed.get? key entries with
      | none => enter (.table (if dotted then .dotted else .implied) [])
      | some (.tables items) => (onLast enter items).map .tables
      | some (.table .inline _) => none
      | some (.table .header inner) => if dotted then none else enter (.table .header inner)
      | some (.table origin inner) => enter (.table origin inner)
      | some _ => none
    child.map fun child => .table origin (Keyed.put key child entries)
  | _ :: _, _ => none

/-- Adds a value under a key that is still free. -/
def add (key : String) (value : Toml) : Toml → Option Toml
  | .table origin entries =>
    match Keyed.get? key entries with
    | none => some (.table origin (Keyed.put key value entries))
    | some _ => none
  | _ => none

/-- Assigns a value to a dotted key of a table. -/
def assign (path : List String) (key : String) (value : Toml) (t : Toml) : Option Toml :=
  if path.isEmpty then add key value t
  else
    descend true (fun
      | .table .dotted entries => add key value (.table .dotted entries)
      | _ => none) path t

/-- Starts the table of a header. -/
def openTable (path : List String) (key : String) : Toml → Option Toml :=
  descend false (fun
    | .table origin entries =>
      match Keyed.get? key entries with
      | none => some (.table origin (Keyed.put key (.table .header []) entries))
      | some (.table .implied inner) =>
        some (.table origin (Keyed.put key (.table .header inner) entries))
      | some _ => none
    | _ => none) path

/-- Starts the next table of an array of tables. -/
def openItem (path : List String) (key : String) : Toml → Option Toml :=
  descend false (fun
    | .table origin entries =>
      match Keyed.get? key entries with
      | none => some (.table origin (Keyed.put key (.tables [.table .header []]) entries))
      | some (.tables items) =>
        some (.table origin (Keyed.put key (.tables (items ++ [.table .header []])) entries))
      | some _ => none
    | _ => none) path

mutual

/-- All numbers of a value are within reach. -/
def fits : Toml → Bool
  | .number fits => fits
  | .array items | .tables items => itemsFit items
  | .table _ entries => entriesFit entries
  | .text _ | .flag _ | .datetime => true

/-- All numbers of a list are within reach. -/
def itemsFit : List Toml → Bool
  | [] => true
  | item :: rest => item.fits && itemsFit rest

/-- All numbers of a table are within reach. -/
def entriesFit : List (String × Toml) → Bool
  | [] => true
  | (_, value) :: rest => value.fits && entriesFit rest

end

end Toml

end ScriptBoundary
