import NativeBridge.Arm64.Instr
import NativeBridge.Fault

/-! # Instructions with checked operands

Byte offsets become the scaled fields of loads, stores and additions, or are refused when they
are misaligned or out of reach. Constants are loaded 16 bits at a time.
-/

namespace NativeBridge.Arm64

/-- An unsigned byte offset in units of `2 ^ scale`. -/
def unsignedUnits (label : String) (scale offset : Nat) : Except StubDefect (Fin 4096) :=
  let unit := 1 <<< scale
  if offset % unit ≠ 0 then .error (.misaligned label offset unit)
  else if h : offset / unit < 4096 then .ok ⟨offset / unit, h⟩
  else .error (.outOfRange label offset)

/-- A signed byte offset in units of eight. -/
def pairUnits (label : String) (offset : Int) : Except StubDefect (BitVec 7) :=
  if offset % 8 ≠ 0 then .error (.misaligned label offset 8)
  else if -64 ≤ offset / 8 ∧ offset / 8 ≤ 63 then .ok (BitVec.ofInt 7 (offset / 8))
  else .error (.outOfPairRange label offset)

def Access.label : Access → String
  | ldrX => "ldr x"
  | strX => "str x"
  | ldrW => "ldr w"
  | strW => "str w"
  | strB => "str b"
  | ldrS => "ldr s"
  | ldrD => "ldr d"
  | strD => "str d"

def Access.scale : Access → Nat
  | ldrX | strX | ldrD | strD => 3
  | ldrW | strW | ldrS => 2
  | strB => 0

theorem Access.one_shiftLeft_scale (op : Access) : 1 <<< op.scale = op.width := by
  cases op <;> rfl

def PairAccess.label : PairAccess → String
  | stpBefore => "stp pre-index"
  | stp => "stp"
  | ldp => "ldp"
  | ldpAfter => "ldp post-index"

def Arith.label : Arith → String
  | add => "add"
  | sub => "sub"

def access (op : Access) (reg base : Reg) (offset : Nat) : Except StubDefect Instr :=
  (unsignedUnits op.label op.scale offset).map (.access op reg base)

def pair (op : PairAccess) (first second base : Reg) (offset : Int) : Except StubDefect Instr :=
  (pairUnits op.label offset).map (.pair op first second base)

def add (dst src : Reg) (immediate : Nat) : Except StubDefect Instr :=
  (unsignedUnits Arith.add.label 0 immediate).map (.arith .add false dst src)

/-- The largest immediate of two additions, one of them in units of 4096. -/
def wideLimit : Nat := 0xFFFFFF

/-- Adds or subtracts an immediate in as many steps as it has non-zero halves, and one for zero.
The second step works on the result of the first. -/
def wide (op : Arith) (dst src : Reg) (immediate : Nat) : Except StubDefect (List Instr) :=
  if h : immediate ≤ wideLimit then
    let low : Fin 4096 := ⟨immediate % 4096, Nat.mod_lt _ (by decide)⟩
    let high : Fin 4096 := ⟨immediate / 4096, by unfold wideLimit at h; omega⟩
    if high = 0 then .ok [.arith op false dst src low]
    else if low = 0 then .ok [.arith op true dst src high]
    else .ok [.arith op true dst src high, .arith op false dst dst low]
  else .error (.wideImmediate op.label immediate wideLimit)

def parts (value : UInt64) : List (Fin 4 × UInt16) :=
  [(0, value.toUInt16), (1, (value >>> 16).toUInt16), (2, (value >>> 32).toUInt16),
    (3, (value >>> 48).toUInt16)]

/-- Loads a value with one instruction for each part that is not zero. -/
def load (dst : Reg) (value : UInt64) : List Instr :=
  match (parts value).filter (·.2 != 0) with
  | [] => [.movz dst 0 0]
  | (part, bits) :: others =>
    .movz dst part bits :: others.map fun (part, bits) => .movk dst part bits

/-- Loads a value with four instructions, whatever it is. -/
def loadFixed (dst : Reg) (value : UInt64) : List Instr :=
  match parts value with
  | [] => []
  | (part, bits) :: others =>
    .movz dst part bits :: others.map fun (part, bits) => .movk dst part bits

theorem length_loadFixed (dst : Reg) (value : UInt64) : (loadFixed dst value).length = 4 := rfl

end NativeBridge.Arm64
