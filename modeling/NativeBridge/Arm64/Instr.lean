/-! # Arm64 instructions

The instructions that stubs are made of and their 32-bit words. A word is its opcode with each
field added at its place, where the opcode's bits are zero.
-/

namespace NativeBridge.Arm64

/-- The number of a general or a vector register. General number 31 is the stack pointer or the
zero register, depending on where it stands. -/
abbrev Reg := Fin 32

namespace Reg

def r0 : Reg := 0

def r1 : Reg := 1

/-- The intra-procedure-call scratch registers, which a stub may overwrite. -/
def ip0 : Reg := 16

def ip1 : Reg := 17

def fp : Reg := 29

def lr : Reg := 30

def sp : Reg := 31

/-- A vector register that no argument arrives in and that need not be kept. -/
def vectorScratch : Reg := 16

end Reg

inductive Arith
  | add
  | sub
  deriving DecidableEq, Repr

/-- Loads and stores of one register at a base register plus a multiple of the width. -/
inductive Access
  | ldrX
  | strX
  | ldrW
  | strW
  | strB
  | ldrS
  | ldrD
  | strD
  deriving DecidableEq, Repr

/-- Loads and stores of two 64-bit registers; before and after say when the base moves. -/
inductive PairAccess
  | stpBefore
  | stp
  | ldp
  | ldpAfter
  deriving DecidableEq, Repr

inductive Instr
  | movX (dst src : Reg)
  | movW (dst src : Reg)
  /-- Sets one 16-bit part and clears the others. -/
  | movz (dst : Reg) (part : Fin 4) (bits : UInt16)
  /-- Sets one 16-bit part and keeps the others. -/
  | movk (dst : Reg) (part : Fin 4) (bits : UInt16)
  /-- The immediate counts as it is, or in units of 4096 when `high`. -/
  | arith (op : Arith) (high : Bool) (dst src : Reg) (units : Fin 4096)
  | access (op : Access) (reg base : Reg) (units : Fin 4096)
  | pair (op : PairAccess) (first second base : Reg) (units : BitVec 7)
  /-- Widens a single-precision number to double precision. -/
  | fcvtDS (dst src : Reg)
  | fmovD (dst src : Reg)
  | fmovSW (dst src : Reg)
  | fmovDX (dst src : Reg)
  | blr (target : Reg)
  | ret
  deriving DecidableEq, Repr

def Arith.opcode : Arith → Nat
  | add => 0x91000000
  | sub => 0xD1000000

def Access.width : Access → Nat
  | ldrX | strX | ldrD | strD => 8
  | ldrW | strW | ldrS => 4
  | strB => 1

def Access.opcode : Access → Nat
  | ldrX => 0xF9400000
  | strX => 0xF9000000
  | ldrW => 0xB9400000
  | strW => 0xB9000000
  | strB => 0x39000000
  | ldrS => 0xBD400000
  | ldrD => 0xFD400000
  | strD => 0xFD000000

def PairAccess.opcode : PairAccess → Nat
  | stpBefore => 0xA9800000
  | stp => 0xA9000000
  | ldp => 0xA9400000
  | ldpAfter => 0xA8C00000

namespace Instr

def code : Instr → Nat
  | movX dst src => 0xAA0003E0 + src.val <<< 16 + dst.val
  | movW dst src => 0x2A0003E0 + src.val <<< 16 + dst.val
  | movz dst part bits => 0xD2800000 + part.val <<< 21 + bits.toNat <<< 5 + dst.val
  | movk dst part bits => 0xF2800000 + part.val <<< 21 + bits.toNat <<< 5 + dst.val
  | arith op high dst src units =>
    op.opcode + high.toNat <<< 22 + units.val <<< 10 + src.val <<< 5 + dst.val
  | access op reg base units => op.opcode + units.val <<< 10 + base.val <<< 5 + reg.val
  | pair op first second base units =>
    op.opcode + units.toNat <<< 15 + second.val <<< 10 + base.val <<< 5 + first.val
  | fcvtDS dst src => 0x1E22C000 + src.val <<< 5 + dst.val
  | fmovD dst src => 0x1E604000 + src.val <<< 5 + dst.val
  | fmovSW dst src => 0x1E270000 + src.val <<< 5 + dst.val
  | fmovDX dst src => 0x9E670000 + src.val <<< 5 + dst.val
  | blr target => 0xD63F0000 + target.val <<< 5
  | ret => 0xD65F03C0

theorem code_lt (i : Instr) : i.code < UInt32.size := by
  change i.code < 0x100000000
  cases i with
  | movX => simp only [code]; omega
  | movW => simp only [code]; omega
  | movz _ _ bits => have := bits.toNat_lt; simp only [code]; omega
  | movk _ _ bits => have := bits.toNat_lt; simp only [code]; omega
  | arith op high =>
    have := Bool.toNat_le high
    cases op <;> simp only [code, Arith.opcode] <;> omega
  | access op => cases op <;> simp only [code, Access.opcode] <;> omega
  | pair op _ _ _ units =>
    have := units.isLt
    cases op <;> simp only [code, PairAccess.opcode] <;> omega
  | fcvtDS => simp only [code]; omega
  | fmovD => simp only [code]; omega
  | fmovSW => simp only [code]; omega
  | fmovDX => simp only [code]; omega
  | blr => simp only [code]; omega
  | ret => decide

def word (i : Instr) : UInt32 :=
  UInt32.ofNat i.code

theorem toNat_word (i : Instr) : i.word.toNat = i.code := by
  simpa [word] using Nat.mod_eq_of_lt i.code_lt

example : (pair .stpBefore Reg.fp Reg.lr Reg.sp (BitVec.ofInt 7 (-4))).word = 0xA9BE7BFD := rfl

example : (arith .sub true Reg.sp Reg.sp 1).word = 0xD14007FF := rfl

end Instr

/-- The bytes of a word in memory, the low byte first. -/
def bytesOfWord (w : UInt32) : List UInt8 :=
  [w.toUInt8, (w >>> 8).toUInt8, (w >>> 16).toUInt8, (w >>> 24).toUInt8]

def bytesOfWords (words : List UInt32) : List UInt8 :=
  words.flatMap bytesOfWord

theorem length_bytesOfWords (words : List UInt32) :
    (bytesOfWords words).length = 4 * words.length := by
  induction words with
  | nil => rfl
  | cons w words ih =>
    rw [bytesOfWords, List.flatMap_cons, List.length_append, ← bytesOfWords, ih, List.length_cons]
    simp only [bytesOfWord, List.length_cons, List.length_nil]
    omega

def littleEndian (bytes : List UInt8) : Nat :=
  bytes.foldr (fun b high => b.toNat + 256 * high) 0

/-- The words that the bytes make up; fewer than four left over make none. -/
def wordsOfBytes : List UInt8 → List UInt32
  | a :: b :: c :: d :: r => UInt32.ofNat (littleEndian [a, b, c, d]) :: wordsOfBytes r
  | _ => []

end NativeBridge.Arm64
