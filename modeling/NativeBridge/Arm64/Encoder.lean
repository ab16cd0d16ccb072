import NativeBridge.Arm64.Assembler

/-! # Encoders

An encoder appends the words of checked instructions to the code written so far. The fields of a
word are or-ed into its opcode, so a field that were too wide would change its neighbours.
-/

namespace NativeBridge.Arm64

/-- A computation on the bytes of a code. What it has written stays written if it is refused. -/
abbrev Encoder := ExceptT StubDefect (StateM (List UInt8))

def unsignedWord (opcode units : Nat) (base reg : Reg) : UInt32 :=
  UInt32.ofNat (opcode ||| units <<< 10 ||| base.val <<< 5 ||| reg.val)

def pairWord (opcode units : Nat) (first second base : Reg) : UInt32 :=
  UInt32.ofNat (opcode ||| units <<< 15 ||| second.val <<< 10 ||| base.val <<< 5 ||| first.val)

/-- The bit of an addition's opcode that makes its immediate count in units of 4096. -/
def highBit : Nat := 1 <<< 22

namespace Encoder

/-- How an encoder ends on a code, and what the code is then. -/
def on (e : Encoder Unit) (code : List UInt8) : Except StubDefect Unit × List UInt8 :=
  (e.run.run code).run

def emit (word : UInt32) : Encoder Unit :=
  modify (· ++ bytesOfWord word)

def access (op : Access) (reg base : Reg) (offset : Nat) : Encoder Unit := do
  let units ← unsignedUnits op.label op.scale offset
  emit (unsignedWord op.opcode units base reg)

def add (dst src : Reg) (immediate : Nat) : Encoder Unit := do
  let units ← unsignedUnits Arith.add.label 0 immediate
  emit (unsignedWord Arith.add.opcode units src dst)

def pair (op : PairAccess) (first second base : Reg) (offset : Int) : Encoder Unit := do
  let units ← pairUnits op.label offset
  emit (pairWord op.opcode units.toNat first second base)

/-- The high half goes first, and the low half is left out after it when it is zero. -/
def wide (op : Arith) (dst src : Reg) (immediate : Nat) : Encoder Unit :=
  if wideLimit < immediate then throw (.wideImmediate op.label immediate wideLimit)
  else do
    let high := immediate / 4096
    let low := immediate % 4096
    if high = 0 then emit (unsignedWord op.opcode low src dst)
    else
      emit (unsignedWord (op.opcode ||| highBit) high src dst)
      if low ≠ 0 then emit (unsignedWord op.opcode low dst dst)

example : (wide .sub .sp .sp 5392).on [] = (.ok (), bytesOfWords [0xD14007FF, 0xD11443FF]) := rfl

end Encoder

end NativeBridge.Arm64
