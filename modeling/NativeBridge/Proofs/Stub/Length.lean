import NativeBridge.Proofs.Arm64.Operands
import NativeBridge.Stub

/-! # How long stubs are

Every part of a stub has a bounded number of instructions, and only moves and the tag string grow
with the number of arguments.
-/

namespace NativeBridge

namespace Arm64

theorem length_load_le (dst : Reg) (value : UInt64) : (load dst value).length ≤ 4 := by
  have hparts : ((parts value).filter (·.2 != 0)).length ≤ 4 := List.length_filter_le ..
  unfold load
  split
  · simp
  · next hcons =>
    rw [hcons] at hparts
    simpa using hparts

theorem length_wide_le {op : Arith} {dst src : Reg} {imm : Nat} {is : List Instr}
    (h : wide op dst src imm = .ok is) : is.length ≤ 2 := by
  cases wide_eq_ok_iff.mp h <;> simp

end Arm64

namespace Stub

open Arm64 Call

variable {f : Frame} {is : List Instr}

theorem length_enter_le (h : enter f = .ok is) : is.length ≤ 6 := by
  unfold enter at h
  split at h
  · obtain ⟨store, -, h⟩ := Checked.bind_eq_ok_iff.mp h
    obtain ⟨point, -, h⟩ := Checked.bind_eq_ok_iff.mp h
    obtain rfl := Checked.pure_eq_ok_iff.mp h
    simp
  · obtain ⟨move, hmove, h⟩ := Checked.bind_eq_ok_iff.mp h
    have := length_wide_le hmove
    split at h
    · obtain ⟨store, -, h⟩ := Checked.bind_eq_ok_iff.mp h
      obtain ⟨point, -, h⟩ := Checked.bind_eq_ok_iff.mp h
      obtain rfl := Checked.pure_eq_ok_iff.mp h
      simp only [List.length_append, List.length_cons, List.length_nil]
      omega
    · obtain ⟨reach, hreach, h⟩ := Checked.bind_eq_ok_iff.mp h
      obtain ⟨store, -, h⟩ := Checked.bind_eq_ok_iff.mp h
      obtain ⟨point, -, h⟩ := Checked.bind_eq_ok_iff.mp h
      obtain rfl := Checked.pure_eq_ok_iff.mp h
      have := length_wide_le hreach
      simp only [List.length_append, List.length_cons, List.length_nil]
      omega

theorem length_leave_le (h : leave f = .ok is) : is.length ≤ 5 := by
  unfold leave at h
  split at h
  · obtain ⟨load, -, h⟩ := Checked.bind_eq_ok_iff.mp h
    obtain rfl := Checked.pure_eq_ok_iff.mp h
    simp
  · split at h
    · obtain ⟨load, -, h⟩ := Checked.bind_eq_ok_iff.mp h
      obtain ⟨up, hup, h⟩ := Checked.bind_eq_ok_iff.mp h
      obtain rfl := Checked.pure_eq_ok_iff.mp h
      have := length_wide_le hup
      simp only [List.length_cons]
      omega
    · obtain ⟨reach, hreach, h⟩ := Checked.bind_eq_ok_iff.mp h
      obtain ⟨load, -, h⟩ := Checked.bind_eq_ok_iff.mp h
      obtain ⟨up, hup, h⟩ := Checked.bind_eq_ok_iff.mp h
      obtain rfl := Checked.pure_eq_ok_iff.mp h
      have := length_wide_le hreach
      have := length_wide_le hup
      simp only [List.length_append, List.length_cons]
      omega

theorem length_move_le {size : Nat} {p : Placement} (h : move size p = .ok is) :
    is.length ≤ 3 := by
  obtain ⟨tag, source, target⟩ := p
  unfold move at h
  split at h
  · cases source <;> cases target <;>
      simp only [moveFloat, Checked.bind_eq_ok_iff, Checked.pure_eq_ok_iff] at h <;> grind
  · cases source <;> cases target <;>
      simp only [moveDouble, moveInteger, Checked.bind_eq_ok_iff, Checked.pure_eq_ok_iff] at h <;>
        grind
  · cases source <;> cases target <;>
      simp only [moveInteger, Checked.bind_eq_ok_iff, Checked.pure_eq_ok_iff] at h <;> grind

theorem length_moves_le {size : Nat} {ps : List Placement} {iss : List (List Instr)}
    (h : List.Forall₂ (fun p is => move size p = .ok is) ps iss) :
    iss.reverse.flatten.length ≤ 3 * ps.length := by
  induction h with
  | nil => simp
  | cons hmove _ ih =>
    have := length_move_le hmove
    simp only [List.reverse_cons, List.flatten_append, List.flatten_singleton,
      List.length_append, List.length_cons]
    omega

theorem widest_cases (count : Nat) : (widest count).width = 8 ∧ 8 ≤ count ∨
    (widest count).width = 4 ∧ 4 ≤ count ∧ count < 8 ∨ (widest count).width = 1 ∧ count < 4 := by
  unfold widest
  split
  · next h => exact .inl ⟨rfl, h⟩
  · split
    · next hsmall h => exact .inr (.inl ⟨rfl, h, Nat.lt_of_not_le hsmall⟩)
    · next h => exact .inr (.inr ⟨rfl, Nat.lt_of_not_le h⟩)

/-- Eight bytes take one store, and so does each byte that is left over. -/
theorem length_storeBytes_le {base : Reg} {offset : Nat} {bytes : List UInt8}
    (h : storeBytes base offset bytes = .ok is) :
    is.length ≤ 5 * (bytes.length / 8 + bytes.length % 8) := by
  induction hn : bytes.length using Nat.strongRecOn generalizing bytes offset is with
  | _ count ih =>
    rw [storeBytes] at h
    split at h
    · obtain rfl := Except.ok.inj h
      simp
    · next hne =>
      have hpos := width_widest_pos bytes.length
      have hlen := List.length_pos_iff.mpr (by simpa using hne)
      obtain ⟨store, -, h⟩ := Checked.bind_eq_ok_iff.mp h
      obtain ⟨others, hothers, h⟩ := Checked.bind_eq_ok_iff.mp h
      obtain rfl := Checked.pure_eq_ok_iff.mp h
      have hload := length_load_le .ip1
        (UInt64.ofNat (littleEndian (bytes.take (widest bytes.length).width)))
      have hrest := ih _ (by rw [List.length_drop]; omega) hothers rfl
      rw [List.length_drop] at hrest
      have hwidest := widest_cases bytes.length
      simp only [List.length_append, List.length_cons]
      omega

theorem length_passTags_le {tags : String} (h : passTags f tags = .ok is) :
    is.length ≤ 5 * ((Text.encode tags ++ [0]).length / 8 +
      (Text.encode tags ++ [0]).length % 8) + 2 := by
  unfold passTags at h
  split at h
  · obtain ⟨stores, hstores, h⟩ := Checked.bind_eq_ok_iff.mp h
    obtain ⟨point, -, h⟩ := Checked.bind_eq_ok_iff.mp h
    obtain rfl := Checked.pure_eq_ok_iff.mp h
    have := length_storeBytes_le hstores
    rw [List.length_append, List.length_singleton]
    omega
  · obtain ⟨point, hpoint, h⟩ := Checked.bind_eq_ok_iff.mp h
    obtain ⟨stores, hstores, h⟩ := Checked.bind_eq_ok_iff.mp h
    obtain rfl := Checked.pure_eq_ok_iff.mp h
    have := length_wide_le hpoint
    have := length_storeBytes_le hstores
    rw [List.length_append]
    omega

theorem length_passResult_le (tag : Tag) : (passResult tag).length ≤ 1 := by
  cases tag <;> decide

end Stub

end NativeBridge
