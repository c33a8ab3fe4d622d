import ScriptBoundary.Error
import ScriptBoundary.Toml.Document

/-!
# Settings

How generated names are made and whether proxies of the classes that a class mentions are built
along with its own. Settings are read from a TOML document with the sections `events` and `proxy`.
What a section leaves out keeps its default, and what is unknown is passed over. A section may also
be an array with its settings in order.
-/

namespace ScriptBoundary

/-- The prefixes of the functions by which scripts subscribe to an event and unsubscribe from it. -/
structure EventPrefixes where
  add : String := "add"
  remove : String := "remove"
deriving DecidableEq, Repr, Inhabited

/-- The settings of an exposer. -/
structure Settings where
  events : EventPrefixes := {}
  /-- Goes before the name of a class in the name that its proxies report. -/
  namePrefix : String := "InstanceProxy"
  /-- Proxies of the classes in a member's signature are built together with the proxy at hand. -/
  prebuildNested : Bool := true
deriving DecidableEq, Repr, Inhabited

namespace Settings

/-- The settings of a section in the order of their keys; missing ones are none. A date counts as a
section without any setting. -/
def section? (keys : List String) : Toml → Option (List (Option Toml))
  | .table _ entries =>
    if (entries.filter fun e => !keys.contains e.1).all (·.2.fits) then
      some (keys.map fun key => Keyed.get? key entries)
    else none
  | .array items | .tables items => some ((List.range keys.length).map fun i => items[i]?)
  | .datetime => some (keys.map fun _ => none)
  | _ => none

/-- A text, if there is one. -/
def text? (default : String) : Option Toml → Option String
  | none => some default
  | some (.text value) => some value
  | some _ => none

/-- A truth value, if there is one. -/
def flag? (default : Bool) : Option Toml → Option Bool
  | none => some default
  | some (.flag value) => some value
  | some _ => none

/-- The section on events. -/
def events? : Option Toml → Option EventPrefixes
  | none => some {}
  | some t => do
    let [add, remove] ← section? ["add_prefix", "remove_prefix"] t | none
    let base : EventPrefixes := {}
    return { add := ← text? base.add add, remove := ← text? base.remove remove }

/-- Settings with the section on proxies. -/
def proxy? (settings : Settings) : Option Toml → Option Settings
  | none => some settings
  | some t => do
    let [namePrefix, prebuildNested] ← section? ["name_prefix", "prebuild_nested"] t | none
    return { settings with
      namePrefix := ← text? settings.namePrefix namePrefix
      prebuildNested := ← flag? settings.prebuildNested prebuildNested }

/-- The settings of a document. -/
def ofToml? (t : Toml) : Option Settings := do
  let [events, proxy] ← section? ["events", "proxy"] t | none
  proxy? { events := ← events? events } proxy

/-- The settings of a text. -/
def parse (text : String) : Except SettingsError Settings :=
  match (Toml.parse? text).bind ofToml? with
  | some settings => .ok settings
  | none => .error (.malformed "no settings in this text")

/-- The settings of a file, given its content if it can be read. -/
def ofFile (path : String) : Option String → Except SettingsError Settings
  | some text => parse text
  | none => .error (.unreadable path "no such file")

end Settings

end ScriptBoundary
