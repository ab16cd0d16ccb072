import Mathlib
import NativeBridge.Arm64.Instr

/-! # Decoding words

The ten high bits of a word say what kind of instruction it is, and the fields below them name its
operands. Words that stand for no instruction of a stub are not decoded. Decoding a word that was
made for an instruction gives the instruction back.
-/

namespace NativeBridge.Arm64

/-- The number in `width` bits of a word, the lowest of them at `low`. -/
def bitField (word low width : Nat) : Nat :=
  word >>> low % 2 ^ width

theorem bitField_lt (word low width : Nat) : bitField word low width < 2 ^ width :=
  Nat.mod_lt _ (Nat.two_pow_pos width)

def regField (word low : Nat) : Reg :=
  ⟨bitField word low 5, bitField_lt word low 5⟩

def unitsField (word : Nat) : Fin 4096 :=
  ⟨bitField word 10 12, bitField_lt word 10 12⟩

/-- Which 16 bits of a constant an instruction loads. -/
def partField (word : Nat) : Fin 4 :=
  ⟨bitField word 21 2, bitField_lt word 21 2⟩

def pairField (word : Nat) : BitVec 7 :=
  BitVec.ofNat 7 (bitField word 15 7)

namespace Instr

def ofCode? (word : Nat) : Option Instr :=
  let first := regField word 0
  let second := regField word 5
  let access op := some (.access op first second (unitsField word))
  let arith op high := some (.arith op high first second (unitsField word))
  let pair op := some (.pair op first (regField word 10) second (pairField word))
  let part := partField word
  let bits := UInt16.ofNat (bitField word 5 16)
  match bitField word 22 10 with
  | 0x3E5 => access .ldrX
  | 0x3E4 => access .strX
  | 0x2E5 => access .ldrW
  | 0x2E4 => access .strW
  | 0x0E4 => access .strB
  | 0x2F5 => access .ldrS
  | 0x3F5 => access .ldrD
  | 0x3F4 => access .strD
  | 0x2A6 => pair .stpBefore
  | 0x2A4 => pair .stp
  | 0x2A5 => pair .ldp
  | 0x2A3 => pair .ldpAfter
  | 0x244 => arith .add false
  | 0x245 => arith .add true
  | 0x344 => arith .sub false
  | 0x345 => arith .sub true
  | 0x34A | 0x34B => some (.movz first part bits)
  | 0x3CA | 0x3CB => some (.movk first part bits)
  -- a move is a bitwise "or" of register 16 bits up with the zero register, unshifted
  | 0x2A8 => if bitField word 21 1 = 0 ∧ bitField word 5 11 = 31 then
      some (.movX first (regField word 16)) else none
  | 0x0A8 => if bitField word 21 1 = 0 ∧ bitField word 5 11 = 31 then
      some (.movW first (regField word 16)) else none
  | 0x078 => match bitField word 10 12 with
    | 0x8B0 => some (.fcvtDS first second)
    | 0x9C0 => some (.fmovSW first second)
    | _ => none
  | 0x079 => if bitField word 10 12 = 0x810 then some (.fmovD first second) else none
  | 0x279 => if bitField word 10 12 = 0x9C0 then some (.fmovDX first second) else none
  | 0x358 => if bitField word 10 12 = 0xFC0 ∧ bitField word 0 5 = 0 then
      some (.blr second) else none
  | 0x359 => if bitField word 0 22 = 0x1F03C0 then some .ret else none
  | _ => none

def decode? (word : UInt32) : Option Instr :=
  ofCode? word.toNat

end Instr

theorem regField_eq {word low : Nat} {r : Reg} (h : word >>> low % 32 = r.val) :
    regField word low = r :=
  Fin.ext h

theorem unitsField_eq {word : Nat} {units : Fin 4096} (h : word >>> 10 % 4096 = units.val) :
    unitsField word = units :=
  Fin.ext h

theorem partField_eq {word : Nat} {part : Fin 4} (h : word >>> 21 % 4 = part.val) :
    partField word = part :=
  Fin.ext h

theorem pairField_eq {word : Nat} {units : BitVec 7} (h : word >>> 15 % 128 = units.toNat) :
    pairField word = units := by
  apply BitVec.eq_of_toNat_eq
  simp [pairField, bitField, h]

namespace Instr

theorem ofCode?_access (op : Access) (reg base : Reg) (units : Fin 4096) :
    ofCode? (access op reg base units).code = some (access op reg base units) := by
  have hr : regField (access op reg base units).code 0 = reg :=
    regField_eq (by cases op <;> simp only [code, Access.opcode] <;> omega)
  have hb : regField (access op reg base units).code 5 = base :=
    regField_eq (by cases op <;> simp only [code, Access.opcode] <;> omega)
  have hu : unitsField (access op reg base units).code = units :=
    unitsField_eq (by cases op <;> simp only [code, Access.opcode] <;> omega)
  have top : bitField (access op reg base units).code 22 10 = op.opcode / 2 ^ 22 := by
    cases op <;> simp only [code, Access.opcode, bitField] <;> omega
  cases op <;> simp only [ofCode?, hr, hb, hu, top] <;> rfl

theorem ofCode?_pair (op : PairAccess) (first second base : Reg) (units : BitVec 7) :
    ofCode? (pair op first second base units).code = some (pair op first second base units) := by
  have := units.isLt
  have hf : regField (pair op first second base units).code 0 = first :=
    regField_eq (by cases op <;> simp only [code, PairAccess.opcode] <;> omega)
  have hs : regField (pair op first second base units).code 10 = second :=
    regField_eq (by cases op <;> simp only [code, PairAccess.opcode] <;> omega)
  have hb : regField (pair op first second base units).code 5 = base :=
    regField_eq (by cases op <;> simp only [code, PairAccess.opcode] <;> omega)
  have hu : pairField (pair op first second base units).code = units :=
    pairField_eq (by cases op <;> simp only [code, PairAccess.opcode] <;> omega)
  have top : bitField (pair op first second base units).code 22 10 = op.opcode / 2 ^ 22 := by
    cases op <;> simp only [code, PairAccess.opcode, bitField] <;> omega
  cases op <;> simp only [ofCode?, hf, hs, hb, hu, top] <;> rfl

theorem ofCode?_arith (op : Arith) (high : Bool) (dst src : Reg) (units : Fin 4096) :
    ofCode? (arith op high dst src units).code = some (arith op high dst src units) := by
  have hhigh := Bool.toNat_le high
  have hd : regField (arith op high dst src units).code 0 = dst :=
    regField_eq (by cases op <;> simp only [code, Arith.opcode] <;> omega)
  have hs : regField (arith op high dst src units).code 5 = src :=
    regField_eq (by cases op <;> simp only [code, Arith.opcode] <;> omega)
  have hu : unitsField (arith op high dst src units).code = units :=
    unitsField_eq (by cases op <;> simp only [code, Arith.opcode] <;> omega)
  have top : bitField (arith op high dst src units).code 22 10 =
      op.opcode / 2 ^ 22 + high.toNat := by
    cases op <;> simp only [code, Arith.opcode, bitField] <;> omega
  cases op <;> cases high <;> simp only [ofCode?, hd, hs, hu, top] <;> rfl

/-- Loads of one part of a constant differ in one bit of the opcode. -/
theorem ofCode?_constant (dst : Reg) (part : Fin 4) (bits : UInt16) :
    ofCode? (movz dst part bits).code = some (movz dst part bits) ∧
      ofCode? (movk dst part bits).code = some (movk dst part bits) := by
  have hbits := bits.toNat_lt
  have fields : ∀ opcode, opcode % 2 ^ 23 = 0 →
      let word := opcode + part.val <<< 21 + bits.toNat <<< 5 + dst.val
      regField word 0 = dst ∧ partField word = part ∧
        UInt16.ofNat (bitField word 5 16) = bits ∧
        bitField word 22 10 = (opcode / 2 ^ 22 + part.val / 2) % 1024 := by
    intro opcode hop word
    refine ⟨regField_eq (by omega), partField_eq (by omega), ?_, ?_⟩
    · apply UInt16.toNat.inj
      simp only [UInt16.toNat_ofNat', bitField]; omega
    · simp only [bitField]; omega
  obtain ⟨hd, hp, hb, top⟩ := fields 0xD2800000 (by decide)
  obtain ⟨kd, kp, kb, ktop⟩ := fields 0xF2800000 (by decide)
  constructor
  · rcases Nat.lt_or_ge part.val 2 with h | h
    · simp only [code, ofCode?, hd, hp, hb, top, Nat.div_eq_of_lt h]; rfl
    · simp only [code, ofCode?, hd, hp, hb, top, show part.val / 2 = 1 by omega]; rfl
  · rcases Nat.lt_or_ge part.val 2 with h | h
    · simp only [code, ofCode?, kd, kp, kb, ktop, Nat.div_eq_of_lt h]; rfl
    · simp only [code, ofCode?, kd, kp, kb, ktop, show part.val / 2 = 1 by omega]; rfl

theorem ofCode?_move (dst src : Reg) :
    ofCode? (movX dst src).code = some (movX dst src) ∧
      ofCode? (movW dst src).code = some (movW dst src) := by
  have fields : ∀ opcode, opcode % 2 ^ 21 = 0x3E0 →
      let word := opcode + src.val <<< 16 + dst.val
      regField word 0 = dst ∧ regField word 16 = src ∧ bitField word 21 1 = opcode / 2 ^ 21 % 2 ∧
        bitField word 5 11 = 31 ∧ bitField word 22 10 = opcode / 2 ^ 22 % 1024 := by
    intro opcode hop word
    refine ⟨regField_eq (by omega), regField_eq (by omega), ?_, ?_, ?_⟩ <;>
      (simp only [bitField]; omega)
  obtain ⟨hd, hs, hshift, hzero, top⟩ := fields 0xAA0003E0 (by decide)
  obtain ⟨wd, ws, wshift, wzero, wtop⟩ := fields 0x2A0003E0 (by decide)
  constructor
  · simp only [code, ofCode?, hd, hs, hshift, hzero, top]; rfl
  · simp only [code, ofCode?, wd, ws, wshift, wzero, wtop]; rfl

/-- The moves that a vector register takes part in name two registers and nothing else. -/
theorem ofCode?_vector (dst src : Reg) :
    ofCode? (fcvtDS dst src).code = some (fcvtDS dst src) ∧
      ofCode? (fmovD dst src).code = some (fmovD dst src) ∧
      ofCode? (fmovSW dst src).code = some (fmovSW dst src) ∧
      ofCode? (fmovDX dst src).code = some (fmovDX dst src) := by
  have fields : ∀ opcode, opcode % 2 ^ 10 = 0 →
      let word := opcode + src.val <<< 5 + dst.val
      regField word 0 = dst ∧ regField word 5 = src ∧
        bitField word 10 12 = opcode / 2 ^ 10 % 4096 ∧
        bitField word 22 10 = opcode / 2 ^ 22 % 1024 := by
    intro opcode hop word
    refine ⟨regField_eq (by omega), regField_eq (by omega), ?_, ?_⟩ <;>
      (simp only [bitField]; omega)
  refine ⟨?_, ?_, ?_, ?_⟩
  · obtain ⟨hd, hs, middle, top⟩ := fields 0x1E22C000 (by decide)
    simp only [code, ofCode?, hd, hs, middle, top]; rfl
  · obtain ⟨hd, hs, middle, top⟩ := fields 0x1E604000 (by decide)
    simp only [code, ofCode?, hd, hs, middle, top]; rfl
  · obtain ⟨hd, hs, middle, top⟩ := fields 0x1E270000 (by decide)
    simp only [code, ofCode?, hd, hs, middle, top]; rfl
  · obtain ⟨hd, hs, middle, top⟩ := fields 0x9E670000 (by decide)
    simp only [code, ofCode?, hd, hs, middle, top]; rfl

theorem ofCode?_blr (target : Reg) : ofCode? (blr target).code = some (blr target) := by
  have hs : regField (blr target).code 5 = target := regField_eq (by simp only [code]; omega)
  have middle : bitField (blr target).code 10 12 = 0xFC0 := by simp only [code, bitField]; omega
  have low : bitField (blr target).code 0 5 = 0 := by simp only [code, bitField]; omega
  have top : bitField (blr target).code 22 10 = 0x358 := by simp only [code, bitField]; omega
  simp only [ofCode?, hs, middle, low, top]
  rfl

@[simp] theorem decode?_word (i : Instr) : decode? i.word = some i := by
  unfold decode?
  rw [toNat_word]
  cases i with
  | movX dst src => exact (ofCode?_move dst src).1
  | movW dst src => exact (ofCode?_move dst src).2
  | movz dst part bits => exact (ofCode?_constant dst part bits).1
  | movk dst part bits => exact (ofCode?_constant dst part bits).2
  | arith op high dst src units => exact ofCode?_arith op high dst src units
  | access op reg base units => exact ofCode?_access op reg base units
  | pair op first second base units => exact ofCode?_pair op first second base units
  | fcvtDS dst src => exact (ofCode?_vector dst src).1
  | fmovD dst src => exact (ofCode?_vector dst src).2.1
  | fmovSW dst src => exact (ofCode?_vector dst src).2.2.1
  | fmovDX dst src => exact (ofCode?_vector dst src).2.2.2
  | blr target => exact ofCode?_blr target
  | ret => rfl

theorem mapM_decode?_eq_some_iff {words : List UInt32} {is : List Instr} :
    words.mapM decode? = some is ↔ List.Forall₂ (fun w i => decode? w = some i) words is := by
  induction words generalizing is with
  | nil => simp [eq_comm]
  | cons w words ih =>
    simp only [List.mapM_cons, Option.bind_eq_bind, Option.bind_eq_some_iff, ih, Option.pure_def,
      Option.some.injEq, List.forall₂_cons_left_iff]
    constructor
    · rintro ⟨i, hi, others, hothers, rfl⟩
      exact ⟨i, others, hi, hothers, rfl⟩
    · rintro ⟨i, others, hi, hothers, rfl⟩
      exact ⟨i, hi, others, hothers, rfl⟩

theorem mapM_decode?_word (is : List Instr) : (is.map word).mapM decode? = some is := by
  rw [mapM_decode?_eq_some_iff, List.forall₂_map_left_iff, List.forall₂_same]
  exact fun i _ => decode?_word i

end Instr

end NativeBridge.Arm64
