import NativeBridge.Arm64.Assembler
import NativeBridge.Call.Plan
import NativeBridge.Text.Utf8

/-! # Stubs

A stub takes a call of a native method in the host's convention and makes it a formatted call,
`dispatcher(function, tags, environment, receiver, arguments …)`. The dispatcher is variadic:
single-precision numbers are widened, and every stack argument takes one slot.
-/

namespace NativeBridge.Stub

open Arm64 Call

/-- The addresses that one stub is made for. -/
structure Target where
  /-- The environment that the function is given in place of the host's. -/
  env : UInt64
  dispatcher : UInt64
  function : UInt64
  deriving DecidableEq, Repr

def reg (index : Fin 8) : Reg :=
  index.castLE (by decide)

def enter (f : Frame) : Except StubDefect (List Instr) :=
  match f.shape with
  | .preIndexed => do
    let store ← pair .stpBefore .fp .lr .sp (-f.size)
    return [store, ← add .fp .sp 0]
  | .split => do
    let move ← wide .sub .sp .sp f.size
    if f.recordOffset ≤ Frame.pairLimit then
      let store ← pair .stp .fp .lr .sp f.recordOffset
      return move ++ [store, ← add .fp .sp f.recordOffset]
    else
      let point ← wide .add .ip1 .sp f.recordOffset
      let store ← pair .stp .fp .lr .ip1 0
      return move ++ point ++ [store, ← add .fp .ip1 0]

def leave (f : Frame) : Except StubDefect (List Instr) :=
  match f.shape with
  | .preIndexed => do return [← pair .ldpAfter .fp .lr .sp f.size]
  | .split => do
    if f.recordOffset ≤ Frame.pairLimit then
      let load ← pair .ldp .fp .lr .sp f.recordOffset
      return load :: (← wide .add .sp .sp f.size)
    else
      let point ← wide .add .ip1 .sp f.recordOffset
      let load ← pair .ldp .fp .lr .ip1 0
      return point ++ load :: (← wide .add .sp .sp f.size)

/-- Moves an integer. Those that arrive on the stack lie just above the stub's frame. -/
def moveInteger (frameSize : Nat) (p : Placement) : Except StubDefect (List Instr) :=
  let load : Access := if p.tag.isWide then .ldrX else .ldrW
  match p.source, p.target with
  | .intReg source, .intReg target =>
    .ok [if p.tag.isWide then .movX (reg target) (reg source) else .movW (reg target) (reg source)]
  | .intReg source, .stack target => do return [← access .strX (reg source) .sp target]
  | .stack source, .intReg target => do
    return [← access load (reg target) .sp (frameSize + source)]
  | .stack source, .stack target => do
    let fetch ← access load .ip1 .sp (frameSize + source)
    return [fetch, ← access .strX .ip1 .sp target]
  | source, target => .error (.immovable p.tag source target)

/-- Moves a single-precision number and widens it on the way. -/
def moveFloat (frameSize : Nat) (p : Placement) : Except StubDefect (List Instr) :=
  match p.source, p.target with
  | .floatReg source, .floatReg target => .ok [.fcvtDS (reg target) (reg source)]
  | .floatReg source, .stack target => do
    let store ← access .strD .vectorScratch .sp target
    return [.fcvtDS .vectorScratch (reg source), store]
  | .stack source, .floatReg target => do
    let fetch ← access .ldrS .vectorScratch .sp (frameSize + source)
    return [fetch, .fcvtDS (reg target) .vectorScratch]
  | .stack source, .stack target => do
    let fetch ← access .ldrS .vectorScratch .sp (frameSize + source)
    let store ← access .strD .vectorScratch .sp target
    return [fetch, .fcvtDS .vectorScratch .vectorScratch, store]
  | source, target => .error (.immovable p.tag source target)

/-- Moves a double-precision number. From or to an integer register it would move as an integer. -/
def moveDouble (frameSize : Nat) (p : Placement) : Except StubDefect (List Instr) :=
  match p.source, p.target with
  | .floatReg source, .floatReg target =>
    .ok (if source = target then [] else [.fmovD (reg target) (reg source)])
  | .floatReg source, .stack target => do return [← access .strD (reg source) .sp target]
  | .stack source, .floatReg target => do
    return [← access .ldrD (reg target) .sp (frameSize + source)]
  | .stack source, .stack target => do
    let fetch ← access .ldrD .vectorScratch .sp (frameSize + source)
    return [fetch, ← access .strD .vectorScratch .sp target]
  | _, _ => moveInteger frameSize p

def move (frameSize : Nat) (p : Placement) : Except StubDefect (List Instr) :=
  match p.tag with
  | .float => moveFloat frameSize p
  | .double => moveDouble frameSize p
  | _ => moveInteger frameSize p

/-- The widest store for the first of so many bytes. -/
def widest (count : Nat) : Access :=
  if 8 ≤ count then .strX else if 4 ≤ count then .strW else .strB

theorem width_widest_pos (count : Nat) : 0 < (widest count).width := by
  cases widest count <;> decide

/-- Writes bytes from `base + offset` on, the widest stores first. -/
def storeBytes (base : Reg) (offset : Nat) (bytes : List UInt8) :
    Except StubDefect (List Instr) :=
  if bytes.isEmpty then .ok []
  else do
    let op := widest bytes.length
    let store ← access op .ip1 base offset
    let others ← storeBytes base (offset + op.width) (bytes.drop op.width)
    return load .ip1 (UInt64.ofNat (littleEndian (bytes.take op.width))) ++ store :: others
termination_by bytes.length
decreasing_by
  have := List.length_pos_iff.2 (by simpa using ‹¬bytes.isEmpty = true›)
  have := width_widest_pos bytes.length
  simp only [List.length_drop]
  omega

/-- The largest offset at which a byte can be stored. -/
def byteLimit : Nat := 4095

/-- Writes the tag string, ended by a zero byte, and leaves its address in register 1. -/
def passTags (f : Frame) (tags : String) : Except StubDefect (List Instr) := do
  let bytes := Text.encode tags ++ [0]
  if f.tagsOffset + (Text.encode tags).length ≤ byteLimit then
    let stores ← storeBytes .sp f.tagsOffset bytes
    return stores ++ [← add .r1 .sp f.tagsOffset]
  else
    let point ← wide .add .r1 .sp f.tagsOffset
    return point ++ (← storeBytes .r1 0 bytes)

/-- Copies the dispatcher's result to where a floating-point result is looked for. -/
def passResult : Tag → List Instr
  | .float => [.fmovSW .r0 .r0]
  | .double => [.fmovDX .r0 .r0]
  | _ => []

/-- The instructions for a planned call. An argument's target is never a register before its
source, so the last argument moves first. -/
def ofPlan (p : Plan) (target : Target) : Except StubDefect (List Instr) := do
  let opening ← enter p.frame
  let moves ← p.placements.reverse.mapM (move p.frame.size)
  let tags ← passTags p.frame p.signature.tagString
  let closing ← leave p.frame
  return opening ++ loadFixed .r0 target.env ++ moves.flatten ++ loadFixed .r0 target.function
    ++ tags ++ loadFixed .ip0 target.dispatcher ++ [.blr .ip0] ++ passResult p.signature.ret
    ++ closing ++ [.ret]

def instructions (sig : Signature) (target : Target) : Except StubDefect (List Instr) := do
  ofPlan (← plan sig) target

def assemble (sig : Signature) (target : Target) : Except Fault (List UInt32) :=
  ((instructions sig target).map (·.map Instr.word)).mapError .noStub

end NativeBridge.Stub
