import NativeBridge.Inspector.Session

/-! # The inspector's command line -/

open NativeBridge

/-- Input is read only for a session that takes it, line by line and without an editor. -/
def main (arguments : List String) : IO UInt32 := do
  let input ← if Inspector.isInteractive arguments then (← IO.getStdin).readToEnd else pure ""
  let outcome := Inspector.start arguments ((input.splitOn "\n").map .line)
  IO.print outcome.output
  IO.eprint outcome.complaint
  return outcome.code.toUInt32
