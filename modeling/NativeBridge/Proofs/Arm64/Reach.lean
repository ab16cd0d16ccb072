import NativeBridge.Proofs.Arm64.Operands

/-! # What is in reach

Operands are accepted within fixed limits: loads and stores up to 4095 units of their width, pairs
within 64 units of eight bytes, wide immediates up to 24 bits. A load or store at a multiple of its
width is refused for no other reason than its limit.
-/

namespace NativeBridge

def StubDefect.IsOutOfRange (defect : StubDefect) : Prop :=
  ∃ instruction offset, defect = .outOfRange instruction offset

namespace Arm64

open Checked

theorem Access.width_pos (op : Access) : 0 < op.width := by
  cases op <;> decide

def Access.Reaches (op : Access) (offset : Nat) : Prop :=
  op.width ∣ offset ∧ offset ≤ op.width * 4095

theorem accepted_access_iff {op : Access} {reg base : Reg} {offset : Nat} :
    Accepted (access op reg base offset) ↔ op.Reaches offset := by
  simp only [Accepted, access_eq_ok_iff]
  constructor
  · rintro ⟨_, units, rfl, -⟩
    exact ⟨Nat.dvd_mul_right .., Nat.mul_le_mul_left _ (Nat.le_of_lt_succ units.isLt)⟩
  · rintro ⟨⟨k, rfl⟩, hle⟩
    have hk : k ≤ 4095 := Nat.le_of_mul_le_mul_left hle op.width_pos
    exact ⟨_, ⟨k, Nat.lt_succ_of_le hk⟩, rfl, rfl⟩

theorem access_refusedOnly {op : Access} {reg base : Reg} {offset : Nat}
    (h : op.width ∣ offset) : RefusedOnly StubDefect.IsOutOfRange (access op reg base offset) := by
  refine RefusedOnly.map ?_ _
  simp only [unsignedUnits, op.one_shiftLeft_scale]
  rw [if_neg (by simpa using Nat.mod_eq_zero_of_dvd h)]
  split
  · exact .ok _
  · exact .error ⟨_, _, rfl⟩

theorem accepted_add_iff {dst src : Reg} {imm : Nat} :
    Accepted (add dst src imm) ↔ imm ≤ 4095 := by
  simp only [Accepted, add_eq_ok_iff]
  constructor
  · rintro ⟨_, units, rfl, -⟩
    exact Nat.le_of_lt_succ units.isLt
  · intro h
    exact ⟨_, ⟨imm, Nat.lt_succ_of_le h⟩, rfl, rfl⟩

theorem accepted_pair_iff {op : PairAccess} {first second base : Reg} {offset : Int} :
    Accepted (pair op first second base offset) ↔ 8 ∣ offset ∧ -512 ≤ offset ∧ offset ≤ 504 := by
  simp only [Accepted, pair_eq_ok_iff]
  constructor
  · rintro ⟨_, units, rfl, -⟩
    have hlow := BitVec.le_toInt units
    have hhigh := BitVec.toInt_lt (x := units)
    omega
  · rintro ⟨⟨k, rfl⟩, hlow, hhigh⟩
    refine ⟨_, BitVec.ofInt 7 k, ?_, rfl⟩
    rw [BitVec.toInt_ofInt, Int.bmod_eq_of_le (by omega) (by omega), Int.mul_comm]

theorem accepted_wide_iff {op : Arith} {dst src : Reg} {imm : Nat} :
    Accepted (wide op dst src imm) ↔ imm ≤ 0xFFFFFF := by
  constructor
  · rintro ⟨is, h⟩
    cases wide_eq_ok_iff.mp h <;> omega
  · intro h
    obtain ⟨high, low, hsum⟩ := exists_halves h
    rw [wide_eq op dst src high low hsum]
    split
    · exact accepted_ok _
    · split <;> exact accepted_ok _

end Arm64

end NativeBridge
