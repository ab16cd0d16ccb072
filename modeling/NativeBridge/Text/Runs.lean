/-! # Runs of characters

A set of characters is given by the code points at which its runs begin and end, in turn.
-/

namespace NativeBridge.Text

/-- A character lies in a run when one more has begun than has ended up to it. -/
def inRuns (edges : List Nat) (c : Char) : Bool :=
  edges.countP (· ≤ c.toNat) % 2 == 1

end NativeBridge.Text
