import NativeBridge.Proofs.Arm64.Decoding
import NativeBridge.Proofs.Arm64.Memory

/-! # The machine

What the instructions of stubs do to registers and memory, and which bytes they load and store on
the way. The widening of single-precision numbers is a parameter.
-/

namespace NativeBridge.Arm64

/-- Registers and memory. General number 31 holds the stack pointer. -/
structure Machine where
  x : Reg → BitVec 64
  v : Reg → BitVec 128
  memory : Memory

/-- A byte that an instruction loads or stores. -/
inductive Touch
  | load (a : Address)
  | store (a : Address)
  deriving DecidableEq

def Touch.stored? : Touch → Option Address
  | load _ => none
  | store a => some a

def Touch.loaded? : Touch → Option Address
  | load a => some a
  | store _ => none

def stored (touched : List Touch) : List Address :=
  touched.filterMap Touch.stored?

def loaded (touched : List Touch) : List Address :=
  touched.filterMap Touch.loaded?

@[simp] theorem stored_nil : stored [] = [] := rfl

@[simp] theorem loaded_nil : loaded [] = [] := rfl

@[simp] theorem stored_append (first rest : List Touch) :
    stored (first ++ rest) = stored first ++ stored rest :=
  List.filterMap_append

@[simp] theorem loaded_append (first rest : List Touch) :
    loaded (first ++ rest) = loaded first ++ loaded rest :=
  List.filterMap_append

@[simp] theorem stored_map_store (l : List Address) : stored (l.map .store) = l := by
  simp [stored, List.filterMap_map, Function.comp_def, Touch.stored?]

@[simp] theorem stored_map_load (l : List Address) : stored (l.map .load) = [] := by
  simp [stored, List.filterMap_map, Touch.stored?]

@[simp] theorem loaded_map_load (l : List Address) : loaded (l.map .load) = l := by
  simp [loaded, List.filterMap_map, Function.comp_def, Touch.loaded?]

@[simp] theorem loaded_map_store (l : List Address) : loaded (l.map .store) = [] := by
  simp [loaded, List.filterMap_map, Touch.loaded?]

namespace Machine

/-- The value of a general register where number 31 stands for zero. -/
def get (m : Machine) (r : Reg) : BitVec 64 :=
  if r = .sp then 0 else m.x r

def set (m : Machine) (r : Reg) (value : BitVec 64) : Machine :=
  { m with x := Function.update m.x r value }

/-- Sets a general register where number 31 takes no value. -/
def put (m : Machine) (r : Reg) (value : BitVec 64) : Machine :=
  if r = .sp then m else m.set r value

/-- Sets the low bits of a vector register and clears the others. -/
def putVector (m : Machine) (r : Reg) (value : BitVec 64) : Machine :=
  { m with v := Function.update m.v r (value.setWidth 128) }

def double (m : Machine) (r : Reg) : BitVec 64 :=
  (m.v r).setWidth 64

def storing (m : Machine) (a : Address) (count : Nat) (value : BitVec 64) : Machine :=
  { m with memory := m.memory.store a count value }

@[simp] theorem set_x (m : Machine) (r : Reg) (value : BitVec 64) :
    (m.set r value).x = Function.update m.x r value := rfl

@[simp] theorem set_v (m : Machine) (r : Reg) (value : BitVec 64) : (m.set r value).v = m.v := rfl

@[simp] theorem set_memory (m : Machine) (r : Reg) (value : BitVec 64) :
    (m.set r value).memory = m.memory := rfl

@[simp] theorem put_memory (m : Machine) (r : Reg) (value : BitVec 64) :
    (m.put r value).memory = m.memory := by
  unfold put; split <;> rfl

@[simp] theorem putVector_x (m : Machine) (r : Reg) (value : BitVec 64) :
    (m.putVector r value).x = m.x := rfl

@[simp] theorem putVector_v (m : Machine) (r : Reg) (value : BitVec 64) :
    (m.putVector r value).v = Function.update m.v r (value.setWidth 128) := rfl

@[simp] theorem putVector_memory (m : Machine) (r : Reg) (value : BitVec 64) :
    (m.putVector r value).memory = m.memory := rfl

@[simp] theorem storing_memory (m : Machine) (a : Address) (count : Nat) (value : BitVec 64) :
    (m.storing a count value).memory = m.memory.store a count value := rfl

theorem put_of_ne {m : Machine} {r : Reg} {value : BitVec 64} (h : r ≠ .sp) :
    m.put r value = m.set r value :=
  if_neg h

theorem get_of_ne {m : Machine} {r : Reg} (h : r ≠ .sp) : m.get r = m.x r :=
  if_neg h

/-- An address counted from the stack pointer is refused when that is not a multiple of 16. -/
def IsBase (m : Machine) (r : Reg) : Prop :=
  r = .sp → (m.x .sp).toNat % 16 = 0

instance (m : Machine) (r : Reg) : Decidable (m.IsBase r) :=
  inferInstanceAs (Decidable (_ → _))

end Machine

/-- A value with one of its 16-bit parts replaced. -/
def withPart (value : BitVec 64) (part : Fin 4) (bits : UInt16) : BitVec 64 :=
  value &&& ~~~((BitVec.allOnes 16).setWidth 64 <<< (16 * part.val)) |||
    bits.toBitVec.setWidth 64 <<< (16 * part.val)

def immediate (high : Bool) (units : Fin 4096) : BitVec 64 :=
  BitVec.ofNat 64 units.val <<< (if high then 12 else 0)

def Arith.apply : Arith → BitVec 64 → BitVec 64 → BitVec 64
  | add, a, b => a + b
  | sub, a, b => a - b

namespace Access

/-- The register or the memory after one load or store at an address, and the bytes touched. -/
def perform (op : Access) (m : Machine) (reg : Reg) (a : Address) : Machine × List Touch :=
  match op with
  | ldrX | ldrW => (m.put reg (m.memory.load a op.width), (span a op.width).map .load)
  | ldrS | ldrD => (m.putVector reg (m.memory.load a op.width), (span a op.width).map .load)
  | strX | strW | strB => (m.storing a op.width (m.get reg), (span a op.width).map .store)
  | strD => (m.storing a op.width (m.double reg), (span a op.width).map .store)

theorem perform_memory (op : Access) (m : Machine) (reg : Reg)
    {a b : Address} (hb : b ∉ stored (op.perform m reg a).2) :
    (op.perform m reg a).1.memory b = m.memory b := by
  cases op with
  | ldrX | ldrW => simp [perform]
  | ldrS | ldrD => simp [perform]
  | strX | strW | strB | strD =>
    simp only [perform, stored_map_store] at hb
    exact Memory.store_of_not_mem hb (by decide)

end Access

namespace PairAccess

/-- Whether the base register is set to the address counted from it. -/
def movesBase : PairAccess → Bool
  | stpBefore | ldpAfter => true
  | stp | ldp => false

def isLoad : PairAccess → Bool
  | stpBefore | stp => false
  | ldp | ldpAfter => true

/-- What a pair may not do: load one register twice, or move a base that is one of its own. -/
def Clashes (op : PairAccess) (first second base : Reg) : Prop :=
  op.isLoad ∧ first = second ∨ op.movesBase ∧ base ≠ .sp ∧ (base = first ∨ base = second)

instance (op : PairAccess) (first second base : Reg) : Decidable (op.Clashes first second base) :=
  inferInstanceAs (Decidable (_ ∨ _))

def perform (op : PairAccess) (m : Machine) (first second base : Reg) (offset : BitVec 64) :
    Machine × List Touch :=
  let a := if op = ldpAfter then m.x base else m.x base + offset
  let touched := if op.isLoad then (span a 16).map Touch.load else (span a 16).map Touch.store
  let moved := if op.isLoad then
      (m.put first (m.memory.load a 8)).put second (m.memory.load (a + 8) 8)
    else (m.storing a 8 (m.get first)).storing (a + 8) 8 (m.get second)
  (if op.movesBase then moved.set base (m.x base + offset) else moved, touched)

theorem perform_memory (op : PairAccess) (m : Machine) (first second base : Reg)
    (offset : BitVec 64) {b : Address}
    (hb : b ∉ stored (op.perform m first second base offset).2) :
    (op.perform m first second base offset).1.memory b = m.memory b := by
  cases op with
  | ldp | ldpAfter => simp [perform, isLoad, movesBase]
  | stp | stpBefore =>
    simp only [perform, isLoad, Bool.false_eq_true, if_false,
      stored_map_store, span_add _ 8 8, List.mem_append, not_or] at hb
    simp only [perform, isLoad, movesBase, Bool.false_eq_true,
      if_false, if_true, Machine.set_memory, Machine.storing_memory]
    exact (Memory.store_of_not_mem hb.2 (by decide)).trans
      (Memory.store_of_not_mem hb.1 (by decide))

end PairAccess

namespace Machine

variable (widen : BitVec 32 → BitVec 64)

/-- The machine after an instruction that the next one follows, and the bytes touched. There is
none after a jump or when the machine refuses the instruction. -/
def perform (m : Machine) : Instr → Option (Machine × List Touch)
  | .movX dst src => some (m.put dst (m.get src), [])
  | .movW dst src => some (m.put dst (((m.get src).setWidth 32).setWidth 64), [])
  | .movz dst part bits => some (m.put dst (withPart 0 part bits), [])
  | .movk dst part bits => some (m.put dst (withPart (m.get dst) part bits), [])
  | .arith op high dst src units =>
    some (m.set dst (op.apply (m.x src) (immediate high units)), [])
  | .access op reg base units =>
    if m.IsBase base then
      some (op.perform m reg (m.x base + BitVec.ofNat 64 (op.width * units.val)))
    else none
  | .pair op first second base units =>
    if m.IsBase base ∧ ¬op.Clashes first second base then
      some (op.perform m first second base (units.signExtend 64 * 8))
    else none
  | .fcvtDS dst src => some (m.putVector dst (widen ((m.v src).setWidth 32)), [])
  | .fmovD dst src => some (m.putVector dst (m.double src), [])
  | .fmovSW dst src => some (m.putVector dst (((m.get src).setWidth 32).setWidth 64), [])
  | .fmovDX dst src => some (m.putVector dst (m.get src), [])
  | .blr _ | .ret => none

def performAll (m : Machine) : List Instr → Option (Machine × List Touch)
  | [] => some (m, [])
  | i :: others => do
    let (m, first) ← m.perform widen i
    let (m, rest) ← m.performAll others
    return (m, first ++ rest)

theorem performAll_nil_iff {m m' : Machine} {touched : List Touch} :
    m.performAll widen [] = some (m', touched) ↔ m = m' ∧ [] = touched := by
  simp [performAll]

theorem performAll_cons_iff {m m'' : Machine} {i : Instr} {others : List Instr}
    {touched : List Touch} : m.performAll widen (i :: others) = some (m'', touched) ↔
      ∃ m' first rest, m.perform widen i = some (m', first) ∧
        m'.performAll widen others = some (m'', rest) ∧ first ++ rest = touched := by
  simp only [performAll, Option.bind_eq_bind, Option.bind_eq_some_iff, Option.pure_def,
    Option.some.injEq, Prod.mk.injEq, Prod.exists]
  constructor
  · rintro ⟨m', first, hi, n, rest, hothers, rfl, rfl⟩
    exact ⟨m', first, rest, hi, hothers, rfl⟩
  · rintro ⟨m', first, rest, hi, hothers, rfl⟩
    exact ⟨m', first, hi, m'', rest, hothers, rfl, rfl⟩

def performWords (m : Machine) (words : List UInt32) : Option (Machine × List Touch) := do
  m.performAll widen (← words.mapM Instr.decode?)

@[simp] theorem performWords_word (m : Machine) (is : List Instr) :
    m.performWords widen (is.map Instr.word) = m.performAll widen is := by
  rw [performWords, Instr.mapM_decode?_word]
  rfl

theorem performAll_singleton (m : Machine) (i : Instr) :
    m.performAll widen [i] = m.perform widen i := by
  cases h : m.perform widen i <;> simp [performAll, h]

theorem performAll_append {m m' m'' : Machine} {before after : List Instr}
    {first rest : List Touch} (hbefore : m.performAll widen before = some (m', first))
    (hafter : m'.performAll widen after = some (m'', rest)) :
    m.performAll widen (before ++ after) = some (m'', first ++ rest) := by
  induction before generalizing m first with
  | nil =>
    obtain ⟨rfl, rfl⟩ := (performAll_nil_iff widen).mp hbefore
    exact hafter
  | cons i others ih =>
    obtain ⟨n, start, middle, hi, hothers, rfl⟩ := (performAll_cons_iff widen).mp hbefore
    rw [List.append_assoc]
    exact (performAll_cons_iff widen).mpr ⟨n, start, middle ++ rest, hi, ih hothers, rfl⟩

variable {widen}

theorem performAll_cons {m m' m'' : Machine} {i : Instr} {others : List Instr}
    {first rest : List Touch} (hi : m.perform widen i = some (m', first))
    (hothers : m'.performAll widen others = some (m'', rest)) :
    m.performAll widen (i :: others) = some (m'', first ++ rest) :=
  (performAll_cons_iff widen).mpr ⟨m', first, rest, hi, hothers, rfl⟩

theorem performAll_pair {m m' m'' : Machine} {i j : Instr} {first rest : List Touch}
    (hi : m.perform widen i = some (m', first)) (hj : m'.perform widen j = some (m'', rest)) :
    m.performAll widen [i, j] = some (m'', first ++ rest) :=
  performAll_cons hi ((performAll_singleton widen m' j).trans hj)

theorem ne_blr_of_performAll {m m' : Machine} {is : List Instr} {touched : List Touch}
    (h : m.performAll widen is = some (m', touched)) {i : Instr} (hi : i ∈ is) (r : Reg) :
    i ≠ .blr r := by
  induction is generalizing m touched with
  | nil => cases hi
  | cons j others ih =>
    obtain ⟨n, first, rest, hj, hothers, rfl⟩ := (performAll_cons_iff widen).mp h
    rcases List.mem_cons.mp hi with rfl | hi
    · rintro rfl
      cases hj
    · exact ih hothers hi

/-- Every byte that is not stored keeps its value. -/
theorem memory_of_perform {m m' : Machine} {i : Instr} {touched : List Touch}
    (h : m.perform widen i = some (m', touched)) {b : Address} (hb : b ∉ stored touched) :
    m'.memory b = m.memory b := by
  cases i with
  | access op reg base units =>
    simp only [perform, Option.ite_none_right_eq_some, Option.some.injEq] at h
    obtain ⟨-, h⟩ := h
    have := op.perform_memory m reg
      (a := m.x base + BitVec.ofNat 64 (op.width * units.val)) (b := b)
    rw [h] at this
    exact this hb
  | pair op first second base units =>
    simp only [perform, Option.ite_none_right_eq_some, Option.some.injEq] at h
    obtain ⟨-, h⟩ := h
    have := op.perform_memory m first second base (units.signExtend 64 * 8) (b := b)
    rw [h] at this
    exact this hb
  | blr | ret => simp [perform] at h
  | _ =>
    simp only [perform, Option.some.injEq, Prod.mk.injEq] at h
    rw [← h.1]
    simp

theorem memory_of_performAll {m m' : Machine} {is : List Instr} {touched : List Touch}
    (h : m.performAll widen is = some (m', touched)) {b : Address} (hb : b ∉ stored touched) :
    m'.memory b = m.memory b := by
  induction is generalizing m touched with
  | nil =>
    obtain ⟨rfl, rfl⟩ := (performAll_nil_iff widen).mp h
    rfl
  | cons i others ih =>
    obtain ⟨n, first, rest, hi, hothers, rfl⟩ := (performAll_cons_iff widen).mp h
    rw [stored_append, List.mem_append, not_or] at hb
    exact (ih hothers hb.2).trans (memory_of_perform hi hb.1)

end Machine

end NativeBridge.Arm64
