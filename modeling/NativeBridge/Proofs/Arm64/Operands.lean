import NativeBridge.Arm64.Assembler
import NativeBridge.Proofs.Arm64.Machine
import NativeBridge.Proofs.Checked

/-! # Checked operands

An operand is accepted when it is a multiple of its unit in reach, and the instruction then does
what the unscaled operand says: loads and stores reach the byte offset asked for, two additions
make one of a wide immediate, and the parts of a constant make up the constant.
-/

namespace NativeBridge.Arm64

theorem unsignedUnits_eq_ok_iff {label : String} {scale offset : Nat} {units : Fin 4096} :
    unsignedUnits label scale offset = .ok units ↔ offset = 2 ^ scale * units.val := by
  have hpos : 0 < 2 ^ scale := Nat.two_pow_pos scale
  simp only [unsignedUnits, Nat.one_shiftLeft]
  split
  · next h =>
    simp only [reduceCtorEq, false_iff]
    rintro rfl
    exact h (Nat.mul_mod_right ..)
  · next h =>
    rw [Decidable.not_not] at h
    have hdiv := Nat.mul_div_cancel' (Nat.dvd_of_mod_eq_zero h)
    split
    · next hlt =>
      rw [Except.ok.injEq, Fin.ext_iff]
      constructor
      · intro hunits; rw [← hunits]; exact hdiv.symm
      · rintro rfl; exact Nat.mul_div_cancel_left _ hpos
    · next hlt =>
      simp only [reduceCtorEq, false_iff]
      rintro rfl
      exact hlt (by rw [Nat.mul_div_cancel_left _ hpos]; exact units.isLt)

theorem pairUnits_eq_ok_iff {label : String} {offset : Int} {units : BitVec 7} :
    pairUnits label offset = .ok units ↔ offset = units.toInt * 8 := by
  have hlow := BitVec.le_toInt units
  have hhigh := BitVec.toInt_lt (x := units)
  unfold pairUnits
  split
  · next h =>
    simp only [reduceCtorEq, false_iff]
    rintro rfl
    omega
  · next h =>
    split
    · next hr =>
      rw [Except.ok.injEq]
      constructor
      · rintro rfl
        rw [BitVec.toInt_ofInt, Int.bmod_eq_of_le (by omega) (by omega)]
        omega
      · rintro rfl
        rw [Int.mul_ediv_cancel _ (by decide), BitVec.ofInt_toInt]
    · next hr =>
      simp only [reduceCtorEq, false_iff]
      rintro rfl
      omega

theorem access_eq_ok_iff {op : Access} {reg base : Reg} {offset : Nat} {i : Instr} :
    access op reg base offset = .ok i ↔
      ∃ units, offset = op.width * units.val ∧ .access op reg base units = i := by
  rw [access, Checked.map_eq_ok_iff]
  simp only [unsignedUnits_eq_ok_iff, ← Nat.one_shiftLeft, op.one_shiftLeft_scale]

theorem pair_eq_ok_iff {op : PairAccess} {first second base : Reg} {offset : Int} {i : Instr} :
    pair op first second base offset = .ok i ↔
      ∃ units, offset = units.toInt * 8 ∧ .pair op first second base units = i := by
  rw [pair, Checked.map_eq_ok_iff]
  simp only [pairUnits_eq_ok_iff]

theorem add_eq_ok_iff {dst src : Reg} {imm : Nat} {i : Instr} :
    add dst src imm = .ok i ↔ ∃ units, imm = units.val ∧ .arith .add false dst src units = i := by
  rw [add, Checked.map_eq_ok_iff]
  simp only [unsignedUnits_eq_ok_iff, Nat.pow_zero, Nat.one_mul]

/-- The steps that make up one addition of a wide immediate. The second works on what the first
leaves. -/
inductive WideSteps (op : Arith) (dst src : Reg) (imm : Nat) : List Instr → Prop
  | low {units : Fin 4096} (h : imm = units.val) :
    WideSteps op dst src imm [.arith op false dst src units]
  | high {units : Fin 4096} (hne : units ≠ 0) (h : imm = 4096 * units.val) :
    WideSteps op dst src imm [.arith op true dst src units]
  | both {high low : Fin 4096} (hhigh : high ≠ 0) (hlow : low ≠ 0)
    (h : imm = 4096 * high.val + low.val) :
    WideSteps op dst src imm [.arith op true dst src high, .arith op false dst dst low]

theorem exists_halves {imm : Nat} (h : imm ≤ wideLimit) :
    ∃ high low : Fin 4096, imm = 4096 * high.val + low.val := by
  unfold wideLimit at h
  exact ⟨⟨imm / 4096, by omega⟩, ⟨imm % 4096, by omega⟩, (Nat.div_add_mod imm 4096).symm⟩

theorem wide_eq (op : Arith) (dst src : Reg) {imm : Nat} (high low : Fin 4096)
    (h : imm = 4096 * high.val + low.val) : wide op dst src imm =
      if high = 0 then .ok [.arith op false dst src low]
      else if low = 0 then .ok [.arith op true dst src high]
      else .ok [.arith op true dst src high, .arith op false dst dst low] := by
  have hhigh : imm / 4096 = high.val := by omega
  have hlow : imm % 4096 = low.val := by omega
  rw [wide, dif_pos (show imm ≤ wideLimit by unfold wideLimit; omega)]
  simp only [hhigh, hlow]

theorem wide_eq_ok_iff {op : Arith} {dst src : Reg} {imm : Nat} {is : List Instr} :
    wide op dst src imm = .ok is ↔ WideSteps op dst src imm is := by
  constructor
  · intro h
    have hlimit : imm ≤ wideLimit := by
      by_contra hnot
      rw [wide, dif_neg hnot] at h
      cases h
    obtain ⟨high, low, hsum⟩ := exists_halves hlimit
    rw [wide_eq op dst src high low hsum] at h
    split at h
    · next hhigh =>
      obtain rfl := Except.ok.inj h
      exact .low (by simpa [hhigh] using hsum)
    · next hhigh =>
      split at h
      · next hlow =>
        obtain rfl := Except.ok.inj h
        exact .high hhigh (by simpa [hlow] using hsum)
      · next hlow =>
        obtain rfl := Except.ok.inj h
        exact .both hhigh hlow hsum
  · intro h
    cases h with
    | @low units h => rw [wide_eq op dst src 0 units (by simpa using h), if_pos rfl]
    | @high units hne h =>
      rw [wide_eq op dst src units 0 (by simpa using h), if_neg hne, if_pos rfl]
    | both hhigh hlow h => rw [wide_eq op dst src _ _ h, if_neg hhigh, if_neg hlow]

theorem ofNat_halves (high low : Nat) : BitVec.ofNat 64 (4096 * high + low) =
    BitVec.ofNat 64 high <<< 12 + BitVec.ofNat 64 low := by
  apply BitVec.eq_of_toNat_eq
  simp only [BitVec.toNat_ofNat, BitVec.toNat_add, BitVec.toNat_shiftLeft]
  omega

namespace Machine

variable (widen : BitVec 32 → BitVec 64) {m : Machine} {i : Instr}

theorem perform_access {op : Access} {reg base : Reg} {offset : Nat}
    (h : access op reg base offset = .ok i) (hb : m.IsBase base) :
    m.perform widen i = some (op.perform m reg (m.x base + BitVec.ofNat 64 offset)) := by
  obtain ⟨units, rfl, rfl⟩ := access_eq_ok_iff.mp h
  rw [perform, if_pos hb]

theorem perform_pair {op : PairAccess} {first second base : Reg} {offset : Int}
    (h : pair op first second base offset = .ok i) (hb : m.IsBase base)
    (hc : ¬op.Clashes first second base) :
    m.perform widen i = some (op.perform m first second base (BitVec.ofInt 64 offset)) := by
  obtain ⟨units, rfl, rfl⟩ := pair_eq_ok_iff.mp h
  rw [perform, if_pos ⟨hb, hc⟩, BitVec.signExtend, BitVec.ofInt_mul]
  rfl

theorem perform_add {dst src : Reg} {imm : Nat} (h : add dst src imm = .ok i) :
    m.perform widen i = some (m.set dst (m.x src + BitVec.ofNat 64 imm), []) := by
  obtain ⟨units, rfl, rfl⟩ := add_eq_ok_iff.mp h
  simp [perform, Arith.apply, immediate]

theorem set_set (m : Machine) (r : Reg) (first second : BitVec 64) :
    (m.set r first).set r second = m.set r second := by
  simp [set]

/-- Both halves of a wide immediate count, also when the base is the register set. -/
theorem performAll_wide {op : Arith} {dst src : Reg} {imm : Nat} {is : List Instr}
    (h : wide op dst src imm = .ok is) :
    m.performAll widen is = some (m.set dst (op.apply (m.x src) (BitVec.ofNat 64 imm)), []) := by
  cases wide_eq_ok_iff.mp h with
  | low himm => simp [performAll, perform, immediate, himm]
  | @high units _ himm =>
    have hunits : BitVec.ofNat 64 (4096 * units.val) = BitVec.ofNat 64 units.val <<< 12 := by
      simpa using ofNat_halves units 0
    simp [performAll, perform, immediate, himm, hunits]
  | both _ _ himm =>
    simp only [performAll, perform, immediate, himm, ofNat_halves]
    cases op
    · simp [Arith.apply, set_set, BitVec.add_assoc]
    · simp [Arith.apply, set_set, BitVec.sub_sub]

end Machine

end NativeBridge.Arm64
