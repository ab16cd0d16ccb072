import NativeBridge.Arm64.Assembler
import NativeBridge.Proofs.Arm64.Operands

/-! # Constants

A value is its four 16-bit parts. Instructions that set the parts one by one leave in a register
the value whose parts they set, where every part that they pass over is zero.
-/

namespace NativeBridge.Arm64

def partOf (value : BitVec 64) (part : Fin 4) : UInt16 :=
  UInt16.ofBitVec (value.extractLsb' (16 * part.val) 16)

theorem eq_of_partOf_eq {a b : BitVec 64} (h : ∀ part, partOf a part = partOf b part) : a = b := by
  apply BitVec.eq_of_getLsbD_eq
  intro k hk
  have hpart := congrArg (·.toBitVec.getLsbD (k % 16)) (h ⟨k / 16, by omega⟩)
  have hmod : k % 16 < 16 := Nat.mod_lt _ (by decide)
  simpa [partOf, BitVec.getLsbD_extractLsb', hmod, Nat.div_add_mod] using hpart

theorem partOf_withPart (value : BitVec 64) (part other : Fin 4) (bits : UInt16) :
    partOf (withPart value part bits) other =
      if other = part then bits else partOf value other := by
  apply UInt16.toBitVec_inj.mp
  apply BitVec.eq_of_getLsbD_eq
  intro k hk
  simp only [partOf, withPart, BitVec.getLsbD_extractLsb', BitVec.getLsbD_or, BitVec.getLsbD_and,
    BitVec.getLsbD_not, BitVec.getLsbD_shiftLeft, BitVec.getLsbD_setWidth, BitVec.getLsbD_allOnes,
    hk, decide_true, Bool.true_and]
  split
  · next h =>
    subst h
    have hlt : 16 * other.val + k < 64 := by omega
    have hge : ¬16 * other.val + k < 16 * other.val := by omega
    simp [hlt, hge, hk, show k < 64 by omega]
  · next h =>
    have hne : other.val ≠ part.val := fun he => h (Fin.ext he)
    have hlt : 16 * other.val + k < 64 := by omega
    rw [UInt16.toBitVec_ofBitVec, BitVec.getLsbD_extractLsb']
    rcases Nat.lt_or_gt_of_ne hne with hlow | hhigh
    · have hshift : 16 * other.val + k < 16 * part.val := by omega
      simp [hlt, hshift, hk]
    · have hshift : ¬16 * other.val + k < 16 * part.val := by omega
      have hout : ¬16 * other.val + k - 16 * part.val < 16 := by omega
      have hbits : bits.toBitVec.getLsbD (16 * other.val + k - 16 * part.val) = false :=
        BitVec.getLsbD_of_ge _ _ (by omega)
      simp [hlt, hshift, hout, hk, hbits]

theorem partOf_foldl_withPart (start : BitVec 64) {value : BitVec 64}
    {steps : List (Fin 4 × UInt16)} (h : ∀ step ∈ steps, step.2 = partOf value step.1)
    (part : Fin 4) :
    partOf (steps.foldl (fun v step => withPart v step.1 step.2) start) part =
      if part ∈ steps.map Prod.fst then partOf value part else partOf start part := by
  induction steps generalizing start with
  | nil => rfl
  | cons step steps ih =>
    rw [List.foldl_cons, ih _ fun s hs => h s (List.mem_cons_of_mem _ hs), partOf_withPart,
      h step List.mem_cons_self, List.map_cons]
    by_cases hin : part ∈ steps.map Prod.fst
    · simp [hin]
    · by_cases heq : part = step.1 <;> simp [hin, heq]

@[simp] theorem partOf_zero (part : Fin 4) : partOf 0#64 part = 0 := by
  simp [partOf]

theorem parts_eq (value : UInt64) :
    parts value = (List.finRange 4).map fun part => (part, partOf value.toBitVec part) := by
  simp only [parts, partOf, List.finRange_succ, List.finRange_zero, List.map_cons, List.map_nil]
  congr

theorem mem_parts_iff {value : UInt64} {step : Fin 4 × UInt16} :
    step ∈ parts value ↔ step.2 = partOf value.toBitVec step.1 := by
  obtain ⟨part, bits⟩ := step
  simp [parts_eq, eq_comm]

theorem partOf_mem_parts (value : UInt64) (part : Fin 4) :
    (part, partOf value.toBitVec part) ∈ parts value :=
  mem_parts_iff.mpr rfl

namespace Machine

variable (widen : BitVec 32 → BitVec 64)

theorem performAll_movk (m : Machine) {dst : Reg} (hdst : dst ≠ .sp)
    (steps : List (Fin 4 × UInt16)) :
    m.performAll widen (steps.map fun (part, bits) => .movk dst part bits) =
      some (m.set dst (steps.foldl (fun v step => withPart v step.1 step.2) (m.x dst)), []) := by
  induction steps generalizing m with
  | nil => simp [performAll, set]
  | cons step steps ih =>
    rw [List.map_cons, performAll_cons_iff]
    refine ⟨m.set dst (withPart (m.x dst) step.1 step.2), [], [], ?_, ?_, rfl⟩
    · rw [perform, put_of_ne hdst, get_of_ne hdst]
    · rw [ih, set_set]
      simp

/-- Steps that set parts of one value leave the value when they pass over zero parts only. -/
theorem performAll_movz_movk (m : Machine) {dst : Reg} (hdst : dst ≠ .sp) {value : BitVec 64}
    {part : Fin 4} {bits : UInt16} {others : List (Fin 4 × UInt16)}
    (hset : ∀ step ∈ (part, bits) :: others, step.2 = partOf value step.1)
    (hskip : ∀ p, partOf value p ≠ 0 → p ∈ ((part, bits) :: others).map Prod.fst) :
    m.performAll widen (.movz dst part bits ::
      others.map fun (part, bits) => .movk dst part bits) = some (m.set dst value, []) := by
  rw [performAll_cons_iff]
  refine ⟨m.set dst (withPart 0 part bits), [], [], ?_, ?_, rfl⟩
  · rw [perform, put_of_ne hdst]
  · rw [performAll_movk widen _ hdst, set_set, set_x, Function.update_self]
    have hvalue : others.foldl (fun v step => withPart v step.1 step.2)
        (withPart 0 part bits) = value := by
      apply eq_of_partOf_eq
      intro p
      have hfold := partOf_foldl_withPart 0 hset p
      rw [List.foldl_cons] at hfold
      rw [hfold]
      split
      · rfl
      · next hnot =>
        have hzero : partOf value p = 0 := by_contra fun hne => hnot (hskip p hne)
        rw [hzero]
        exact partOf_zero p
    rw [hvalue]

theorem performAll_loadFixed (m : Machine) {dst : Reg} (hdst : dst ≠ .sp) (value : UInt64) :
    m.performAll widen (loadFixed dst value) = some (m.set dst value.toBitVec, []) := by
  have hset : ∀ step ∈ parts value, step.2 = partOf value.toBitVec step.1 :=
    fun _ hstep => mem_parts_iff.mp hstep
  have hskip : ∀ part, partOf value.toBitVec part ≠ 0 → part ∈ (parts value).map Prod.fst :=
    fun part _ => List.mem_map.mpr ⟨_, partOf_mem_parts value part, rfl⟩
  unfold loadFixed
  split
  · next hnil => cases hnil
  · next part bits others hcons =>
    rw [hcons] at hset hskip
    exact performAll_movz_movk widen m hdst hset hskip

theorem performAll_load (m : Machine) {dst : Reg} (hdst : dst ≠ .sp) (value : UInt64) :
    m.performAll widen (load dst value) = some (m.set dst value.toBitVec, []) := by
  have hset : ∀ step ∈ (parts value).filter (·.2 != 0), step.2 = partOf value.toBitVec step.1 :=
    fun _ hstep => mem_parts_iff.mp (List.mem_of_mem_filter hstep)
  have hskip : ∀ part, partOf value.toBitVec part ≠ 0 →
      part ∈ ((parts value).filter (·.2 != 0)).map Prod.fst := by
    intro part hpart
    refine List.mem_map.mpr ⟨_, List.mem_filter.mpr ⟨partOf_mem_parts value part, ?_⟩, rfl⟩
    simpa using hpart
  unfold load
  split
  · next hnil =>
    rw [hnil] at hskip
    have hzero : ∀ part, partOf value.toBitVec part = 0 :=
      fun part => by_contra fun hne => List.not_mem_nil (hskip part hne)
    have hset' : ∀ step ∈ [((0 : Fin 4), (0 : UInt16))], step.2 = partOf value.toBitVec step.1 := by
      intro step hstep
      obtain rfl := List.mem_singleton.mp hstep
      exact (hzero 0).symm
    exact performAll_movz_movk widen m hdst hset' fun part hne => absurd (hzero part) hne
  · next part bits others hcons =>
    rw [hcons] at hset hskip
    exact performAll_movz_movk widen m hdst hset hskip

end Machine

end NativeBridge.Arm64
