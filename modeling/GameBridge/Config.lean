import GameBridge.Disk
import GameBridge.Engine.State
import GameBridge.Text.Encoding
import GameBridge.Text.Quoted
import GameBridge.Toml.Document

/-!
# The configuration

A file in TOML can say where the client's database is, how often the caches are refreshed and what
happens to games that vanish, and by which scheme links are opened. Every setting has a default,
and so has the whole file. Settings that do not exist are refused rather than passed over, and the
scheme has to be one that a link can start with.

A section is a table, or an array with the settings in their order, of which the last ones may be
missing.
-/

namespace GameBridge

/-- What the configuration says. -/
structure Config where
  /-- Where the client's database is, if it is not in its usual place. -/
  databasePath : Option Path
  /-- The seconds between two refreshes of the owned games. -/
  ownershipInterval : UInt64
  /-- The seconds between two refreshes of the installed games. -/
  installationInterval : UInt64
  /-- What happens to games that the source no longer lists. -/
  staleness : Staleness
  /-- The scheme of links to games. -/
  scheme : String
deriving DecidableEq, Repr

/-- Why there is no configuration. What a reader would say about the file is left out. -/
inductive ConfigFault where
  /-- The file cannot be read. -/
  | unreadable (path : Path)
  /-- The file does not hold settings. -/
  | unparsable (path : Path)
  /-- The scheme is not one of a link. -/
  | badScheme (path : Path) (scheme : String)
deriving DecidableEq, Repr

/-- The message for people. -/
def ConfigFault.message : ConfigFault → String
  | unreadable path => "Failed to read config " ++ path ++ ": "
  | unparsable path => "Failed to parse config " ++ path ++ ": "
  | badScheme path scheme =>
    "Invalid config " ++ path ++ ": launch.uri_scheme " ++ Text.quoted scheme
      ++ " is not a valid URI scheme"

namespace Config

open Toml

/-- The configuration without a file. -/
def default : Config := ⟨none, 86400, 3600, .sticky, "itch"⟩

/-! ## Sections -/

/-- The settings of a section by name. A table must have no others. -/
def settings? (names : List String) : Item → Option (String → Option Item)
  | .table _ entries =>
    if entries.all fun entry ↦ names.contains entry.1 then
      some fun name ↦ findEntry name entries
    else none
  | .array items => some fun name ↦ (names.zip items).lookup name
  | .tables list =>
    some fun name ↦ (names.zip (list.reverse.map (Item.table .header))).lookup name
  | _ => none

/-- A setting, or what holds without it. -/
def setting? {α : Type} (read : Item → Option α) (missing : α) : Option Item → Option α
  | some item => read item
  | none => some missing

/-- Reads a text. -/
def text? : Item → Option String
  | .text s => some s
  | _ => none

/-- Reads a number of seconds. -/
def seconds? : Item → Option UInt64
  | .int n => if 0 ≤ n then some n.toUInt64 else none
  | _ => none

/-- The policy with a name. -/
def stalenessNamed? (name : String) : Option Staleness :=
  if name = Staleness.sticky.name then some .sticky
  else if name = Staleness.prune.name then some .prune
  else none

/-- Reads a policy: its name, or a table with the name as its only key and nothing in it. -/
def staleness? : Item → Option Staleness
  | .text name => stalenessNamed? name
  | .table _ [(name, .table _ [])] => stalenessNamed? name
  | .table _ [(name, .array [])] => stalenessNamed? name
  | _ => none

/-- A section that says nothing. -/
def blank : Item := .table .header []

/-- Reads the settings of a document. -/
def ofEntries? (entries : Entries) : Option Config := do
  -- all names are checked before any setting is read
  let section? ← settings? ["store", "refresh", "launch"] (.table .header entries)
  let store ← settings? ["butler_db_path"] ((section? "store").getD blank)
  let refresh ← settings? ["ownership_interval_secs", "installation_interval_secs", "staleness"]
    ((section? "refresh").getD blank)
  let launch ← settings? ["uri_scheme"] ((section? "launch").getD blank)
  let databasePath ← setting? (fun item ↦ (text? item).map some) default.databasePath
    (store "butler_db_path")
  let ownershipInterval ← setting? seconds? default.ownershipInterval
    (refresh "ownership_interval_secs")
  let installationInterval ← setting? seconds? default.installationInterval
    (refresh "installation_interval_secs")
  let staleness ← setting? staleness? default.staleness (refresh "staleness")
  let scheme ← setting? text? default.scheme (launch "uri_scheme")
  return { databasePath, ownershipInterval, installationInterval, staleness, scheme }

/-- Reads the settings in a text. -/
def read? (text : String) : Option Config := (Toml.read? text).bind ofEntries?

/-! ## The scheme -/

/-- Whether a character may stand in a scheme. -/
def isSchemeChar (c : Char) : Bool := c.isAlphanum || c == '+' || c == '-' || c == '.'

/-- Whether a text is a scheme: a letter and what may follow it. -/
def isScheme (s : String) : Bool :=
  (s.toList.head?.any Char.isAlpha) && s.toList.all isSchemeChar

/-! ## Loading -/

/-- Loads the configuration in the file at a path. -/
def load (disk : Disk) (path : Path) : Except ConfigFault Config :=
  if disk.contains path = false then .ok default
  else
    match (disk.contentAt path).toOption.bind Text.ofBytes? with
    | none => .error (.unreadable path)
    | some text =>
      match read? text with
      | none => .error (.unparsable path)
      | some config =>
        if isScheme config.scheme then .ok config else .error (.badScheme path config.scheme)

/-- The settings of the engine. An interval is held within the times. -/
def engineSettings (config : Config) : Settings where
  intervals :=
    ⟨Int64.ofIntClamp config.ownershipInterval.toNat,
      Int64.ofIntClamp config.installationInterval.toNat⟩
  staleness := config.staleness
  scheme := config.scheme

end Config

end GameBridge
