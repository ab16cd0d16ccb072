/-! # Argument locations

An argument travels in an integer register, in a floating-point register, or in the stack's
argument area.
-/

namespace NativeBridge

inductive Location
  | intReg (index : Fin 8)
  | floatReg (index : Fin 8)
  /-- Bytes from the start of the argument area. -/
  | stack (offset : Nat)
  deriving DecidableEq, Repr

namespace Location

def text : Location → String
  | intReg index => s!"x{index.val}"
  | floatReg index => s!"v{index.val}"
  | stack offset => s!"[stack+{offset}]"

def isStack : Location → Bool
  | stack _ => true
  | _ => false

end Location

end NativeBridge
