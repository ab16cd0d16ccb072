import NativeBridge.Arm64.Assembler
import NativeBridge.Call.Location
import NativeBridge.Fault

/-! # Call plans

Arguments arrive where the host's calling convention puts them and leave where the dispatcher
looks for them after its own two leading integer arguments. Between the two stands one stack frame:
outgoing stack arguments, the frame record, and the tag string.
-/

namespace NativeBridge.Call

def intRegs : Nat := 8

def floatRegs : Nat := 8

/-- The dispatcher takes the function address and the tag string first. -/
def reservedInts : Nat := 2

def reservedFloats : Nat := 0

def slotBytes : Nat := 8

/-- The next free register of each class and the next free byte of the argument area. -/
structure Lanes where
  nextInt : Nat
  nextFloat : Nat
  nextStack : Nat
  deriving DecidableEq, Repr

namespace Lanes

def after (ints floats : Nat) : Lanes :=
  ⟨ints, floats, 0⟩

def location (l : Lanes) : RegisterClass → Location
  | .integer => if h : l.nextInt < 8 then .intReg ⟨l.nextInt, h⟩ else .stack l.nextStack
  | .float => if h : l.nextFloat < 8 then .floatReg ⟨l.nextFloat, h⟩ else .stack l.nextStack

def next (l : Lanes) : RegisterClass → Lanes
  | .integer =>
    if l.nextInt < intRegs then { l with nextInt := l.nextInt + 1 }
    else { l with nextStack := l.nextStack + slotBytes }
  | .float =>
    if l.nextFloat < floatRegs then { l with nextFloat := l.nextFloat + 1 }
    else { l with nextStack := l.nextStack + slotBytes }

end Lanes

/-- Where one argument comes from and where it goes. -/
structure Placement where
  tag : Tag
  source : Location
  target : Location
  deriving DecidableEq, Repr

structure Placed where
  sources : Lanes
  targets : Lanes
  placements : Array Placement

def Placed.empty : Placed :=
  ⟨.after 0 0, .after reservedInts reservedFloats, #[]⟩

def Placed.push (p : Placed) (tag : Tag) : Placed where
  sources := p.sources.next tag.registerClass
  targets := p.targets.next tag.registerClass
  placements := p.placements.push
    ⟨tag, p.sources.location tag.registerClass, p.targets.location tag.registerClass⟩

/-- How the frame record is stored. -/
inductive FrameShape
  /-- At the bottom of the frame, while the stack pointer moves. -/
  | preIndexed
  /-- Above the outgoing arguments, after the stack pointer has moved. -/
  | split
  deriving DecidableEq, Repr

/-- The stub's frame. Offsets count bytes from the stack pointer in the stub's body. -/
structure Frame where
  outgoing : Nat
  size : Nat
  shape : FrameShape
  deriving DecidableEq, Repr

namespace Frame

/-- A stored frame pointer and a stored link register. -/
def recordBytes : Nat := 16

def recordOffset (f : Frame) : Nat := f.outgoing

def tagsOffset (f : Frame) : Nat := f.outgoing + recordBytes

/-- The largest offset from which a pair of registers can be stored. -/
def pairLimit : Nat := 504

/-- The least multiple of the stack's alignment that holds `bytes`. -/
def aligned (bytes : Nat) : Nat :=
  (bytes + 15) / 16 * 16

def ofBytes (outgoing tagBytes : Nat) : Except StubDefect Frame :=
  let size := aligned (outgoing + recordBytes + tagBytes)
  if outgoing = 0 ∧ size ≤ pairLimit then .ok ⟨outgoing, size, .preIndexed⟩
  else if size ≤ Arm64.wideLimit then .ok ⟨outgoing, size, .split⟩
  else .error (.frameTooLarge size outgoing)

end Frame

structure Plan where
  signature : Signature
  placements : List Placement
  frame : Frame
  deriving DecidableEq, Repr

/-- Plans the call of a method whose first argument is its environment. -/
def plan (sig : Signature) : Except StubDefect Plan := do
  if sig.args.head? ≠ some .pointer then .error (.noEnvironment sig) else
  if Tag.void ∈ sig.args then .error (.voidArgument sig) else
  let placed := sig.args.foldl Placed.push .empty
  let frame ← Frame.ofBytes placed.targets.nextStack (sig.args.length + 1)
  return ⟨sig, placed.placements.toList, frame⟩

end NativeBridge.Call
