/-!
# Times

A time is a number of seconds in 64 bits, and so is the distance of two times. Distances are held
within the range where the exact one would leave it. Moving a clock wraps around instead.
-/

namespace GameBridge

/-- A time in seconds. -/
abbrev Time := Int64

namespace Time

/-- The seconds that have passed since an earlier time, held within 64 bits. -/
def elapsed (now since : Time) : Int64 := Int64.ofIntClamp (now.toInt - since.toInt)

/-- How the distance of two times is held within 64 bits. -/
theorem toInt_elapsed (now since : Time) :
    (elapsed now since).toInt
      = max Int64.minValue.toInt (min Int64.maxValue.toInt (now.toInt - since.toInt)) := by
  have hlimits : Int64.minValue.toInt ≤ Int64.maxValue.toInt := by decide
  rw [elapsed, Int64.ofIntClamp]
  split
  · split
    · rw [Int64.toInt_ofIntLE]
      omega
    · omega
  · omega

/-- The time that is some seconds later. -/
def advance (now : Time) (seconds : Int64) : Time := now + seconds

/-- Whether an integer has 64 bits. -/
def fits (i : Int) : Bool := decide (Int64.minValue.toInt ≤ i ∧ i ≤ Int64.maxValue.toInt)

end Time

end GameBridge
