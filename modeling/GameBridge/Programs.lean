import GameBridge.Disk
import GameBridge.Failure

/-!
# Running programs

A game is run in the folder of its executable, and a link is handed to the program that opens links
as its only argument. How a program ends makes no difference; that it cannot be started does. A
program is started with texts that hold no zero character, since such a character ends them.
-/

namespace GameBridge.Programs

/-- The cause given when a program cannot be started because of something on the disk. A folder is
nothing that may be run. -/
def cause : DiskFault → String
  | .notFound => "No such file or directory (os error 2)"
  | .notFolder => "Not a directory (os error 20)"
  | .isFolder => "Permission denied (os error 13)"
  | .occupied => "File exists (os error 17)"
  | .nameTooLong => "File name too long (os error 36)"
  | .zeroCharacter => "nul byte found in provided data"
  | .noSpace => "No space left on device (os error 28)"

/-- Enters a folder. -/
def enter (disk : Disk) (folder : Path) : Except DiskFault Route := do
  let place ← disk.find folder
  match disk.at? place with
  | some (.folder _) => .ok place
  | _ => .error .notFolder

/-- Where an executable runs: the folder that contains it. The folder is entered first, and then
the executable has to be a file. -/
def start (disk : Disk) (executable : Path) : Except DiskFault Route :=
  if executable.toList.contains '\x00' then .error .zeroCharacter
  else do
    let folder ←
      match executable.parent? with
      | some parent => enter disk parent
      | none => .ok []
    let _ ← disk.contentAt executable
    return folder

/-- Runs an executable, and gives the folder in which it runs. -/
def run (disk : Disk) (executable : Path) : Except Failure Route :=
  (start disk executable).mapError fun fault ↦ .launchFailed executable (cause fault)

/-- Opens a link if there is a program for it, and gives the arguments of the program. -/
def openLink (hasOpener : Bool) (uri : String) : Except Failure (List String) :=
  if uri.toList.contains '\x00' then .error (.openFailed uri (cause .zeroCharacter))
  else if hasOpener then .ok [uri]
  else .error (.openFailed uri (cause .notFound))

end GameBridge.Programs
