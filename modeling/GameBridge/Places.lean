import GameBridge.Capacity
import GameBridge.Path

/-!
# Where things are kept

The bridge keeps its files in a folder of its own, and it reads the database that the client keeps
in the folder for configurations. A folder for configurations that is not an absolute path does not
count, and neither does a home that is empty. The disk with these folders has room for everything,
as `Capacity` says.
-/

namespace GameBridge

/-- Where the bridge and the client keep their files. -/
structure Places where
  /-- The folder of the bridge. -/
  root : Path
  /-- The database of the client. -/
  database : Path
deriving DecidableEq, Repr

namespace Places

/-- Everything in one folder. -/
def ofRoot (root : Path) : Places := ⟨root, Path.join root "butler.db"⟩

/-- The same with the database elsewhere. -/
def withDatabase (places : Places) (path : Path) : Places := { places with database := path }

/-- The home of the user where no other is named. -/
def defaultHome : Path := "/root"

/-- The home that the environment names, if it names one. -/
def home (named : Option String) : Path :=
  match named with
  | some path => if path = "" then defaultHome else path
  | none => defaultHome

/-- The folder for configurations. -/
def configFolder (home : Path) (named : Option String) : Path :=
  match named with
  | some path => if Path.isAbsolute path then path else Path.join home ".config"
  | none => Path.join home ".config"

/-- The usual places, given the two variables of the environment. -/
def usual (homeVariable configVariable : Option String) : Places :=
  let home := home homeVariable
  ⟨Path.join home ".itch-bridge", Path.join (configFolder home configVariable) "itch/db/butler.db"⟩

/-- The socket on which hosts connect. -/
def socket (places : Places) : Path := Path.join places.root "bridge.sock"

/-- The file of the store. -/
def cache (places : Places) : Path := Path.join places.root "persistent-cache.json"

/-- The file of the configuration. -/
def config (places : Places) : Path := Path.join places.root "config.toml"

/-- The folder of the logs. -/
def logs (places : Places) : Path := Path.join places.root "logs"

end Places

end GameBridge
