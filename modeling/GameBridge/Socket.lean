import GameBridge.Disk

/-!
# The place of the socket

Before the bridge listens, the folder of its socket is made and whatever is left of an earlier
socket is removed. A folder in its place is not removed.
-/

namespace GameBridge.Socket

/-- Why the place of the socket cannot be prepared. -/
inductive Fault where
  /-- There can be no folder that contains the socket. -/
  | rootless
  /-- The folder cannot be made. -/
  | folder
  /-- What is in its place cannot be removed. -/
  | leftover
deriving DecidableEq, Repr

/-- The message for people. -/
def Fault.message : Fault → String
  | rootless => "Socket path has no parent"
  | folder => "Failed to create socket directory: "
  | leftover => "Failed to remove existing socket: "

/-- Makes the folder of the socket: what went wrong, if anything, and the disk after. -/
def prepare (disk : Disk) (socket : Path) : Option Fault × Disk :=
  match socket.parent? with
  | none => (some .rootless, disk)
  | some folder =>
    let (fault, disk) := disk.makeFolders folder
    (fault.map fun _ ↦ .folder, disk)

/-- Removes what is left of an earlier socket. -/
def removeLeftover (disk : Disk) (socket : Path) : Except Fault Disk :=
  if disk.contains socket then
    match disk.discard socket with
    | .ok disk => .ok disk
    | .error _ => .error .leftover
  else .ok disk

end GameBridge.Socket
