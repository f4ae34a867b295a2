import GameBridge.Disk
import GameBridge.Failure
import GameBridge.Json.Printer

/-!
# The store

What has to outlive the program is stored as texts under text keys. A store holds all its entries
in memory. A store with a file behind it also writes all of them to the disk whenever one changes,
and takes the change back if that fails, so that memory never gets ahead of the disk.

The file is never written in place. A save makes the folder, writes a temporary file beside the
store's file and then renames it, so that whatever interrupts a save leaves the file either as it
was or complete. If the disk has no room for all entries, the temporary file stays with the first
ones.
-/

namespace GameBridge

/-! ## Files -/

/-- What keeps the entries beyond memory. -/
inductive Backing where
  /-- Nothing; setting entries can be made to fail. -/
  | memory (failing : Bool)
  /-- A file. -/
  | file (path : Path)
deriving DecidableEq, Repr

/-- Stored texts, and what keeps them. -/
structure Store where
  /-- The entries in memory. -/
  entries : Index String
  /-- What keeps them. -/
  backing : Backing
deriving DecidableEq

namespace Store

/-- The extension of temporary files. -/
def temporaryExtension : String := "tmp"

/-- The path of the temporary file for a file. -/
def temporary (path : Path) : Path := path.replaceExtension temporaryExtension

/-- Reads a member of an object as a stored text. -/
def entry? (member : Option String × Json.Document) : Option (String × String) := do
  return (← member.1, ← member.2.text?)

/-- Reads the members of an object as stored texts; of several with one name the last counts. -/
def indexOf? (members : Json.Document.Members) : Option (Index String) :=
  (members.mapM entry?).map Index.ofList

/-- The entries that the content of a file holds. -/
def parse? (content : List UInt8) : Option (Index String) :=
  match Json.Document.read? content with
  | some (.obj members) => indexOf? members
  | _ => none

/-- The entries that the file at a path holds. No file holds no entries. -/
def load (disk : Disk) (path : Path) : Except Failure (Index String) :=
  match disk.contentAt path with
  | .error .notFound => .ok .empty
  | .error _ => .error (.readFailed path "")
  | .ok content =>
    match parse? content with
    | some entries => .ok entries
    | none => .error (.readFailed path "Failed to parse persistent cache: ")

/-- Opens the store that is kept in the file at a path. -/
def ofFile (disk : Disk) (path : Path) : Except Failure Store :=
  (load disk path).map fun entries ↦ ⟨entries, .file path⟩

/-- A store without a file. -/
def ofEntries (entries : Index String) : Store := ⟨entries, .memory false⟩

/-! ## Saving -/

/-- The step at which saving stopped. -/
inductive SaveFault where
  /-- The folder cannot be made. -/
  | folder
  /-- The temporary file cannot be written. -/
  | write
  /-- The temporary file cannot take the place of the file. -/
  | commit
deriving DecidableEq, Repr

/-- The message for people. -/
def SaveFault.message : SaveFault → String
  | folder => "Failed to create cache dir: "
  | write => "Failed to write persistent cache: "
  | commit => "Failed to commit persistent cache: "

/-- Makes the folder of a file. -/
def prepare (disk : Disk) (path : Path) : Option DiskFault × Disk :=
  match path.parent? with
  | some folder => disk.makeFolders folder
  | none => (none, disk)

/-- Writes a file by way of a temporary one: what went wrong, if anything, and the disk after. -/
def save [Room] (disk : Disk) (path : Path) (content : List UInt8) : Option SaveFault × Disk :=
  match prepare disk path with
  | (some _, prepared) => (some .folder, prepared)
  | (none, prepared) =>
    match prepared.write (temporary path) content with
    | .error _ => (some .write, prepared.leftover (temporary path) content)
    | .ok written =>
      match written.rename (temporary path) path with
      | .error _ => (some .commit, written)
      | .ok done => (none, done)

/-! ## Entries -/

/-- The text stored under a key. -/
def get? (store : Store) (key : String) : Option String := store.entries.get? key

/-- Stores a text under a key. On failure the store is as it was before. -/
def put [Room] (store : Store) (disk : Disk) (key value : String) :
    Except Failure Unit × Store × Disk :=
  let entries := store.entries.insert key value
  match store.backing with
  | .memory true => (.error (.writeFailed key "writes disabled"), store, disk)
  | .memory false => (.ok (), { store with entries }, disk)
  | .file path =>
    -- the new entries are only kept if they have reached the disk
    match save disk path (Json.indexBytes entries) with
    | (none, saved) => (.ok (), { store with entries }, saved)
    | (some fault, saved) => (.error (.writeFailed key fault.message), store, saved)

/-- Makes setting entries of a store without a file fail, or succeed again. -/
def failing (store : Store) (fail : Bool) : Store :=
  match store.backing with
  | .memory _ => { store with backing := .memory fail }
  | .file _ => store

end Store

end GameBridge
