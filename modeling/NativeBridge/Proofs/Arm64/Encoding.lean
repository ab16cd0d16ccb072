import NativeBridge.Arm64.Encoder
import NativeBridge.Proofs.Arm64.Reach

/-! # Encoding

The fields that an encoder ors together never overlap, so its words are those of the instructions
asked for. An encoder appends all words of its instructions or none.
-/

namespace NativeBridge.Arm64

open Checked

/-- A number below the lowest bit of another is or-ed to it like a digit. -/
theorem or_eq_add (k : Nat) {high low : Nat} (hhigh : 2 ^ k ∣ high) (hlow : low < 2 ^ k) :
    high ||| low = high + low := by
  obtain ⟨c, rfl⟩ := hhigh
  exact (Nat.two_pow_add_eq_or_of_lt hlow c).symm

theorem unsignedWord_eq {opcode units : Nat} (hopcode : 2 ^ 22 ∣ opcode) (hunits : units < 4096)
    (base reg : Reg) : unsignedWord opcode units base reg =
      UInt32.ofNat (opcode + units <<< 10 + base.val <<< 5 + reg.val) := by
  rw [unsignedWord, or_eq_add 22 hopcode (by omega),
    or_eq_add 10 (show 2 ^ 10 ∣ opcode + units <<< 10 by omega) (by omega),
    or_eq_add 5 (by omega) (by omega)]

theorem unsignedWord_access (op : Access) (reg base : Reg) (units : Fin 4096) :
    unsignedWord op.opcode units base reg = (Instr.access op reg base units).word :=
  unsignedWord_eq (by cases op <;> decide) units.isLt base reg

theorem unsignedWord_arith (op : Arith) (dst src : Reg) (units : Fin 4096) :
    unsignedWord op.opcode units src dst = (Instr.arith op false dst src units).word :=
  unsignedWord_eq (by cases op <;> decide) units.isLt src dst

theorem unsignedWord_arith_high (op : Arith) (dst src : Reg) (units : Fin 4096) :
    unsignedWord (op.opcode ||| highBit) units src dst =
      (Instr.arith op true dst src units).word := by
  rw [unsignedWord_eq (by cases op <;> decide) units.isLt]
  cases op <;> rfl

theorem pairWord_eq (op : PairAccess) (first second base : Reg) (units : BitVec 7) :
    pairWord op.opcode units.toNat first second base =
      (Instr.pair op first second base units).word := by
  have := units.isLt
  have hopcode : 2 ^ 22 ∣ op.opcode := by cases op <;> decide
  rw [pairWord, or_eq_add 22 hopcode (by omega),
    or_eq_add 15 (show 2 ^ 15 ∣ op.opcode + units.toNat <<< 15 by omega) (by omega),
    or_eq_add 10 (show 2 ^ 10 ∣ op.opcode + units.toNat <<< 15 + second.val <<< 10 by omega)
      (by omega),
    or_eq_add 5 (by omega) (by omega)]
  rfl

namespace Encoder

/-- Whether an encoder appends the instructions that a check makes or, when it makes none, is
refused for the same reason and keeps the code. -/
def Appends (e : Encoder Unit) (made : Except StubDefect (List Instr)) : Prop :=
  ∀ code, e.on code = match made with
    | .ok is => (.ok (), code ++ bytesOfWords (is.map Instr.word))
    | .error defect => (.error defect, code)

theorem on_emit (word : UInt32) (code : List UInt8) :
    (emit word).on code = (.ok (), code ++ bytesOfWord word) := rfl

theorem appends_error (defect : StubDefect) : Appends (throw defect) (.error defect) :=
  fun _ => rfl

theorem appends_emit (i : Instr) : Appends (emit i.word) (.ok [i]) := by
  intro code
  simp [on_emit, bytesOfWords]

theorem appends_emit_emit (i j : Instr) :
    Appends (do emit i.word; emit j.word) (.ok [i, j]) := by
  intro code
  change (Except.ok (), code ++ bytesOfWord i.word ++ bytesOfWord j.word) = _
  simp [bytesOfWords]

/-- The check comes before anything is written. -/
theorem appends_check {α : Type} (check : Except StubDefect α) {e : α → Encoder Unit}
    {make : α → Instr} (h : ∀ a, e a = emit (make a).word) :
    Appends (do e (← check)) ((check.map make).map ([·])) := by
  obtain rfl : e = fun a => emit (make a).word := funext h
  cases check with
  | error defect => exact fun _ => rfl
  | ok a => exact appends_emit (make a)

theorem access_appends (op : Access) (reg base : Reg) (offset : Nat) :
    Appends (access op reg base offset) ((Arm64.access op reg base offset).map ([·])) :=
  appends_check _ fun units => congrArg emit (unsignedWord_access op reg base units)

theorem add_appends (dst src : Reg) (imm : Nat) :
    Appends (add dst src imm) ((Arm64.add dst src imm).map ([·])) :=
  appends_check _ fun units => congrArg emit (unsignedWord_arith .add dst src units)

theorem pair_appends (op : PairAccess) (first second base : Reg) (offset : Int) :
    Appends (pair op first second base offset)
      ((Arm64.pair op first second base offset).map ([·])) :=
  appends_check _ fun units => congrArg emit (pairWord_eq op first second base units)

theorem wide_appends (op : Arith) (dst src : Reg) (imm : Nat) :
    Appends (wide op dst src imm) (Arm64.wide op dst src imm) := by
  by_cases h : imm ≤ wideLimit
  · obtain ⟨high, low, hsum⟩ := exists_halves h
    have hdiv : imm / 4096 = high.val := by omega
    have hmod : imm % 4096 = low.val := by omega
    rw [wide_eq op dst src high low hsum, wide, if_neg (Nat.not_lt.mpr h)]
    simp only [hdiv, hmod, unsignedWord_arith, unsignedWord_arith_high, Fin.val_eq_zero_iff]
    by_cases hhigh : high = 0
    · simpa [hhigh] using appends_emit (.arith op false dst src low)
    · by_cases hlow : low = 0
      · simpa [hhigh, hlow] using appends_emit (.arith op true dst src high)
      · simpa [hhigh, hlow] using
          appends_emit_emit (.arith op true dst src high) (.arith op false dst dst low)
  · rw [wide, if_pos (Nat.lt_of_not_le h), Arm64.wide, dif_neg h]
    exact appends_error _

/-- Whether an encoder is accepted precisely when its operands are in reach, appends the words
requested then, and keeps the code when it is refused. -/
structure Encodes (e : Encoder Unit) (inReach : Prop) (requested : List UInt32 → Prop) : Prop where
  accepted_iff (code : List UInt8) : Accepted (e.on code).1 ↔ inReach
  appended {code code' : List UInt8} (h : e.on code = (.ok (), code')) :
    ∃ words, code' = code ++ bytesOfWords words ∧ requested words
  kept {code code' : List UInt8} {defect : StubDefect} (h : e.on code = (.error defect, code')) :
    code' = code

theorem Appends.encodes {e : Encoder Unit} {made : Except StubDefect (List Instr)}
    {inReach : Prop} {requested : List UInt32 → Prop} (h : Appends e made)
    (hreach : Accepted made ↔ inReach)
    (hrequested : ∀ is, made = .ok is → requested (is.map Instr.word)) :
    Encodes e inReach requested := by
  cases made with
  | error defect =>
    constructor
    · intro code
      rw [← hreach, h code]
      exact iff_of_false (not_accepted_error _) (not_accepted_error _)
    · intro code code' hrun
      rw [h code] at hrun
      cases hrun
    · intro code code' defect' hrun
      rw [h code] at hrun
      exact (congrArg Prod.snd hrun).symm
  | ok is =>
    constructor
    · intro code
      rw [← hreach, h code]
      exact iff_of_true (accepted_ok _) (accepted_ok _)
    · intro code code' hrun
      rw [h code] at hrun
      exact ⟨_, (congrArg Prod.snd hrun).symm, hrequested is rfl⟩
    · intro code code' defect' hrun
      rw [h code] at hrun
      cases hrun

/-- An encoder of one instruction is refused by its check alone. -/
theorem Appends.encodes_one {e : Encoder Unit} {made : Except StubDefect Instr} {inReach : Prop}
    {requested : List UInt32 → Prop} (h : Appends e (made.map ([·])))
    (hreach : Accepted made ↔ inReach) (hrequested : ∀ i, made = .ok i → requested [i.word]) :
    Encodes e inReach requested := by
  refine h.encodes (accepted_map_iff.trans hreach) ?_
  intro is his
  obtain ⟨i, hi, rfl⟩ := map_eq_ok_iff.mp his
  exact hrequested i hi

/-- Each encoder accepts the operands that its fields hold and no others. Its words stand for the
instruction asked for, and a wide addition or subtraction counts its whole immediate also where it
overwrites its own base. -/
theorem encoders_exact :
    (∀ op reg base offset, Encodes (access op reg base offset) (op.Reaches offset) fun words =>
      ∃ units : Fin 4096, op.width * units.val = offset ∧
        words.mapM Instr.decode? = some [.access op reg base units]) ∧
    (∀ dst src imm, Encodes (add dst src imm) (imm ≤ 4095) fun words =>
      ∃ units : Fin 4096, units.val = imm ∧
        words.mapM Instr.decode? = some [.arith .add false dst src units]) ∧
    (∀ op first second base offset, Encodes (pair op first second base offset)
      (8 ∣ offset ∧ -512 ≤ offset ∧ offset ≤ 504) fun words =>
      ∃ units : BitVec 7, units.toInt * 8 = offset ∧
        words.mapM Instr.decode? = some [.pair op first second base units]) ∧
    (∀ op dst src imm, Encodes (wide op dst src imm) (imm ≤ 0xFFFFFF) fun words =>
      (∃ is, words.mapM Instr.decode? = some is ∧ WideSteps op dst src imm is) ∧
      ∀ (widen : BitVec 32 → BitVec 64) (m : Machine), m.performWords widen words =
        some (m.set dst (op.apply (m.x src) (BitVec.ofNat 64 imm)), [])) := by
  refine ⟨?_, ?_, ?_, ?_⟩
  · intro op reg base offset
    apply (access_appends op reg base offset).encodes_one accepted_access_iff
    intro i hi
    obtain ⟨units, rfl, rfl⟩ := access_eq_ok_iff.mp hi
    exact ⟨units, rfl, Instr.mapM_decode?_word [_]⟩
  · intro dst src imm
    apply (add_appends dst src imm).encodes_one accepted_add_iff
    intro i hi
    obtain ⟨units, rfl, rfl⟩ := add_eq_ok_iff.mp hi
    exact ⟨units, rfl, Instr.mapM_decode?_word [_]⟩
  · intro op first second base offset
    apply (pair_appends op first second base offset).encodes_one accepted_pair_iff
    intro i hi
    obtain ⟨units, rfl, rfl⟩ := pair_eq_ok_iff.mp hi
    exact ⟨units, rfl, Instr.mapM_decode?_word [_]⟩
  · intro op dst src imm
    apply (wide_appends op dst src imm).encodes accepted_wide_iff
    intro is his
    constructor
    · exact ⟨is, Instr.mapM_decode?_word is, wide_eq_ok_iff.mp his⟩
    · intro widen m
      rw [Machine.performWords_word, Machine.performAll_wide widen his]

end Encoder

end NativeBridge.Arm64
