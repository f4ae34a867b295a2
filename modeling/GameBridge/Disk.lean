import GameBridge.Index
import GameBridge.Path

/-!
# A file system as a value

A disk is a tree of folders and files. Every operation of the file store is a function from a disk
to a disk or a fault, so that what is on the disk between two operations, and after an operation
that failed, can be spoken about.

An operation takes a path and follows it on the disk as it is: a name followed by `..` has to be
there and to be a folder, although the path goes back again. Relative paths start at the root,
since there is no other place for them to start. Folders are made and files replaced in one step
each; there are no links, and no access rights.

A disk can be full. How many bytes there is room for in a file is up to the machine, so it is left
open as `Room`, and everything that writes files takes it as given. Names, folders and empty files
need no room.
-/

namespace GameBridge

/-- A file with its content, or a folder with what is in it. -/
inductive Node where
  /-- A file. -/
  | file (content : List UInt8)
  /-- A folder and the nodes in it by name. -/
  | folder (children : List (String × Node))
deriving Repr

/-- The node at the root. -/
abbrev Disk := Node

/-- The names that lead from the root to a node. -/
abbrev Route := List String

/-- Why an operation on the disk fails. -/
inductive DiskFault where
  /-- There is nothing at the place. -/
  | notFound
  /-- A name on the way is a file, or a file stands where only a folder can. -/
  | notFolder
  /-- A folder is where a file is needed. -/
  | isFolder
  /-- There is something at the place already. -/
  | occupied
  /-- A name or the whole path is too long. -/
  | nameTooLong
  /-- The path holds a zero character. -/
  | zeroCharacter
  /-- There is no room for all of a content. -/
  | noSpace
deriving DecidableEq, Repr

namespace Node

/-- The folder with nothing in it. -/
def emptyFolder : Node := .folder []

/-- Whether the node is a folder. -/
def isFolder : Node → Bool
  | .folder _ => true
  | .file _ => false

/-- The node at the end of a route, or what stops the way there. -/
def look : Node → Route → Except DiskFault Node
  | node, [] => .ok node
  | .file _, _ :: _ => .error .notFolder
  | .folder children, name :: rest =>
    match findEntry name children with
    | some child => child.look rest
    | none => .error .notFound

/-- The node at the end of a route, if there is one. -/
def at? (node : Node) (route : Route) : Option Node := (node.look route).toOption

/-- Whether there is anything at the end of a route. -/
def occupied (node : Node) (route : Route) : Bool := (node.at? route).isSome

/-- Removes the entry with a name. -/
def eraseEntry (name : String) : List (String × Node) → List (String × Node)
  | [] => []
  | (k, v) :: rest => if name = k then eraseEntry name rest else (k, v) :: eraseEntry name rest

/-- Puts `new` at the end of a route whose folder exists; elsewhere nothing changes. -/
def place (new : Node) : Node → Route → Node
  | _, [] => new
  | .file content, _ :: _ => .file content
  | .folder children, name :: rest =>
    match findEntry name children, rest with
    | some child, rest => .folder (insertEntry name (place new child rest) children)
    | none, [] => .folder (insertEntry name new children)
    | none, _ :: _ => .folder children

/-- Removes what is at the end of a route, with everything in it. The root stays. -/
def remove : Node → Route → Node
  | node, [] => node
  | .file content, _ :: _ => .file content
  | .folder children, [name] => .folder (eraseEntry name children)
  | .folder children, name :: next :: rest =>
    match findEntry name children with
    | some child => .folder (insertEntry name (child.remove (next :: rest)) children)
    | none => .folder children

/-- The routes of everything below a node, folders before what is in them. -/
def routes : Node → List (Route × Bool)
  | .file _ => []
  | .folder children => routesOf children
where
  /-- The routes of everything under the given entries. -/
  routesOf : List (String × Node) → List (Route × Bool)
    | [] => []
    | (name, node) :: rest =>
      ([name], node.isFolder)
        :: (node.routes.map fun below ↦ (name :: below.1, below.2)) ++ routesOf rest

end Node

/-- How many bytes the file at a place may have, given everything else that is on the disk; without
a number it may have any. -/
class Room where
  limit : Disk → Route → Option Nat

namespace Disk

/-! ## Following paths -/

/-- How many bytes a name may have. -/
def maxNameBytes : Nat := 255

/-- How many bytes a path may have. -/
def maxPathBytes : Nat := 4095

/-- Follows names from a folder on. The name `.` stays, and `..` goes back to the folder that
contains the present one. Every name but the last has to lead to a folder. -/
def follow (disk : Disk) (place : Route) : List String → Except DiskFault Route
  | [] => .ok place
  | name :: rest =>
    match disk.at? place with
    | some (.folder children) =>
      if name = "." then follow disk place rest
      else if name = ".." then follow disk place.dropLast rest
      else if maxNameBytes < name.utf8ByteSize then .error .nameTooLong
      else if (findEntry name children).isSome then follow disk (place ++ [name]) rest
      else .error .notFound
    | _ => .error .notFolder

/-- Refuses texts that cannot refer to anything. -/
def checkText (path : Path) : Except DiskFault Unit :=
  if path.toList.contains '\x00' then .error .zeroCharacter
  else if maxPathBytes < path.utf8ByteSize then .error .nameTooLong
  else if path = "" then .error .notFound
  else .ok ()

/-- Where the node is that a path refers to. -/
def find (disk : Disk) (path : Path) : Except DiskFault Route := do
  checkText path
  let place ← disk.follow [] path.names
  match disk.at? place with
  | some (.file _) => if path.endsWithSeparator then .error .notFolder else .ok place
  | _ => .ok place

/-- Where a path would put a new node: the folder, and the name in it. The names `.` and `..` stand
for folders that are there already. -/
def slot (disk : Disk) (path : Path) : Except DiskFault (Route × String) := do
  checkText path
  match path.names.getLast? with
  | none => .error .isFolder
  | some name =>
    let place ← disk.follow [] path.names.dropLast
    match disk.at? place with
    | some (.folder _) =>
      if name = "." ∨ name = ".." then .error .isFolder
      else if maxNameBytes < name.utf8ByteSize then .error .nameTooLong
      else .ok (place, name)
    | _ => .error .notFolder

/-! ## Looking -/

/-- Whether a path refers to anything. -/
def contains (disk : Disk) (path : Path) : Bool := (disk.find path).toOption.isSome

/-- The node that a path refers to. -/
def nodeAt? (disk : Disk) (path : Path) : Option Node := (disk.find path).toOption.bind disk.at?

/-- Whether a path refers to a folder. -/
def isFolder (disk : Disk) (path : Path) : Bool := (disk.nodeAt? path).any Node.isFolder

/-- Whether a path refers to a file. -/
def isFile (disk : Disk) (path : Path) : Bool := (disk.nodeAt? path).any (!·.isFolder)

/-- The content of the file that a path refers to. -/
def contentAt (disk : Disk) (path : Path) : Except DiskFault (List UInt8) := do
  let place ← disk.find path
  match disk.at? place with
  | some (.file content) => .ok content
  | _ => .error .isFolder

/-! ## Folders -/

/-- Makes a folder in one that exists. -/
def makeFolder (disk : Disk) (path : Path) : Except DiskFault Disk := do
  let (place, name) ← disk.slot path
  if disk.occupied (place ++ [name]) then .error .occupied
  else .ok (Node.place .emptyFolder disk (place ++ [name]))

/-- Makes the first folder of a chain; if the one that should contain it is missing, that is made
first. What was made before something went wrong stays. -/
def makeChain (disk : Disk) : List Path → Option DiskFault × Disk
  | [] => (some .notFound, disk)
  | path :: above =>
    if path = "" then (none, disk)
    else
      match disk.makeFolder path with
      | .ok made => (none, made)
      | .error .notFound =>
        match makeChain disk above with
        | (some fault, disk) => (some fault, disk)
        | (none, disk) =>
          match disk.makeFolder path with
          | .ok made => (none, made)
          | .error fault => (if disk.isFolder path then none else some fault, disk)
      | .error fault => (if disk.isFolder path then none else some fault, disk)

/-- Makes the folder that a path refers to, and the folders on the way that are missing. -/
def makeFolders (disk : Disk) (path : Path) : Option DiskFault × Disk :=
  disk.makeChain path.chain

/-! ## Files -/

/-- As many bytes of a content as the file that a path refers to has room for. What is in the file
already does not count, since it is replaced. -/
def roomFor [Room] (disk : Disk) (path : Path) (content : List UInt8) : List UInt8 :=
  match disk.slot path with
  | .error _ => content
  | .ok (place, name) =>
    match Room.limit (Node.remove disk (place ++ [name])) (place ++ [name]) with
    | none => content
    | some limit => content.take limit

/-- Writes a file, replacing its content if it is there. -/
def write [Room] (disk : Disk) (path : Path) (content : List UInt8) : Except DiskFault Disk := do
  let (place, name) ← disk.slot path
  match disk.at? (place ++ [name]) with
  | some (.folder _) => .error .isFolder
  | _ =>
    if path.endsWithSeparator then .error .isFolder
    else if disk.roomFor path content ≠ content then .error .noSpace
    else .ok (Node.place (.file content) disk (place ++ [name]))

/-- The disk after a file could not be written. If it was opened, it has as many bytes as there was
room for. -/
def leftover [Room] (disk : Disk) (path : Path) (content : List UInt8) : Disk :=
  (disk.write path (disk.roomFor path content)).toOption.getD disk

/-- Moves a file to another path, replacing a file there. Moving a file onto itself does
nothing. -/
def rename (disk : Disk) (source target : Path) : Except DiskFault Disk := do
  let (sourcePlace, sourceName) ← disk.slot source
  let (targetPlace, targetName) ← disk.slot target
  let origin := sourcePlace ++ [sourceName]
  let goal := targetPlace ++ [targetName]
  match disk.at? origin with
  | none => .error .notFound
  | some (.folder _) => .error .isFolder
  | some (.file content) =>
    if source.endsWithSeparator || target.endsWithSeparator then .error .notFolder
    else if origin = goal then .ok disk
    else
      match disk.at? goal with
      | some (.folder _) => .error .isFolder
      -- nothing is taken away before the target is known to be free
      | _ => .ok (Node.place (.file content) (Node.remove disk origin) goal)

/-- Removes a file. -/
def discard (disk : Disk) (path : Path) : Except DiskFault Disk := do
  let (place, name) ← disk.slot path
  match disk.at? (place ++ [name]) with
  | none => .error .notFound
  | some (.folder _) => .error .isFolder
  | some (.file _) =>
    if path.endsWithSeparator then .error .notFolder
    else .ok (Node.remove disk (place ++ [name]))

end Disk

end GameBridge
