import GameBridge.Number.Numeral
import GameBridge.Store
import GameBridge.Text.Quoted
import GameBridge.Time

/-!
# Playtime

For each game the store keeps the total of minutes played and the time at which the last session
ended, both as decimal texts. A game without these texts has never been played as far as is known,
which is not the same as having been played for no time.

Stored numbers are read as double precision values, since older texts may hold fractions, and cut
to whole numbers within 64 bits.
-/

namespace GameBridge.Playtime

/-! ## Keys -/

/-- The key of the minutes played. -/
def timeKey (id : String) : String := "time" ++ id

/-- The key of the end of the last session. -/
def lastKey (id : String) : String := "last" ++ id

/-! ## Sessions -/

/-- The whole minutes of a session; none if the clock went backwards. -/
def sessionMinutes (start stop : Time) : UInt64 :=
  UInt64.ofNatClamp ((Time.elapsed stop start).toInt.toNat / 60)

/-- The sum of two counts of minutes, held within 64 bits. -/
def addMinutes (a b : UInt64) : UInt64 := UInt64.ofNatClamp (a.toNat + b.toNat)

/-! ## Reading -/

/-- The number stored under a key, which belongs to a game. -/
def number (store : Store) (id key : String) : Except Failure (Option Binary64) :=
  match store.get? key with
  | none => .ok none
  | some raw =>
    match readFinite? raw with
    | some x => .ok (some x)
    | none =>
      .error (.malformedRecord id (key ++ " holds non-numeric value " ++ Text.quoted raw))

/-- The minutes played, if known. -/
def total (store : Store) (id : String) : Except Failure (Option UInt64) :=
  (number store id (timeKey id)).map (Option.map Binary64.toUInt64)

/-- The end of the last session, if known. -/
def lastPlayed (store : Store) (id : String) : Except Failure (Option Time) :=
  (number store id (lastKey id)).map (Option.map Binary64.toInt64)

/-! ## Recording -/

/-- The total of a game after one more session. -/
def newTotal (store : Store) (id : String) (start stop : Time) : Except Failure UInt64 :=
  (total store id).map fun previous ↦ addMinutes (previous.getD 0) (sessionMinutes start stop)

/-- Stores the minutes played. -/
def putTotal [Room] (store : Store) (disk : Disk) (id : String) (sum : UInt64) :
    Except Failure Unit × Store × Disk :=
  store.put disk (timeKey id) (Decimal.ofUInt64 sum)

/-- Stores the end of the last session. -/
def putEnd [Room] (store : Store) (disk : Disk) (id : String) (stop : Time) :
    Except Failure Unit × Store × Disk :=
  store.put disk (lastKey id) (Decimal.ofInt64 stop)

/-- Adds a session to the total of a game, and gives the new total. -/
def record [Room] (store : Store) (disk : Disk) (id : String) (start stop : Time) :
    Except Failure UInt64 × Store × Disk :=
  match newTotal store id start stop with
  | .error failure => (.error failure, store, disk)
  | .ok sum =>
    -- the total first: if it cannot be stored, the end of the session is not stored either
    match putTotal store disk id sum with
    | (.error failure, store, disk) => (.error failure, store, disk)
    | (.ok (), store, disk) =>
      match putEnd store disk id stop with
      | (.error failure, store, disk) => (.error failure, store, disk)
      | (.ok (), store, disk) => (.ok sum, store, disk)

end GameBridge.Playtime
