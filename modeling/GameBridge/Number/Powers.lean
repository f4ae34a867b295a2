/-!
# Powers of two and of ten

The powers by which binary and decimal numbers are scaled.
-/

namespace GameBridge

/-- The power `2 ^ n`. -/
def twoTo (n : Nat) : Nat := Nat.pow 2 n

/-- The power `10 ^ n`. -/
def tenTo (n : Nat) : Nat := Nat.pow 10 n

end GameBridge
