import NativeBridge.Proofs.Checked
import NativeBridge.Text.Count

/-! # What a count denotes

A text is read as a count exactly if it is made of decimal digits, after one plus sign or none,
and the number that they stand for is within the limit.
-/

namespace NativeBridge.Text

open Checked

theorem le_ofDigitChars (cs : List Char) (n : Nat) : n ≤ Nat.ofDigitChars 10 cs n := by
  rw [Nat.ofDigitChars_eq_ofDigitChars_zero]
  exact Nat.le_trans (Nat.le_mul_of_pos_left n (Nat.pow_pos (by decide))) (Nat.le_add_right _ _)

/-- Whether decimal digits, after a plus sign or none, stand for a number. -/
def Denotes (text : String) (n : UInt64) : Prop :=
  ∃ digits : List Char, (text.toList = digits ∨ text.toList = '+' :: digits) ∧ digits ≠ [] ∧
    (∀ c ∈ digits, c.isDigit = true) ∧ Nat.ofDigitChars 10 digits 0 = n.toNat

/-- Numbers grow with every digit, so none is past the limit if the last one is within it. -/
theorem countFrom_eq_ok_iff {value n : Nat} {cs : List Char} (start : value < countLimit) :
    countFrom value cs = .ok n ↔ (∀ c ∈ cs, c.isDigit = true) ∧
      Nat.ofDigitChars 10 cs value = n ∧ n < countLimit := by
  induction cs generalizing value with
  | nil =>
    simp only [countFrom, Except.ok.injEq, List.not_mem_nil, false_implies, implies_true,
      Nat.ofDigitChars_nil, true_and]
    constructor
    · rintro rfl
      exact ⟨rfl, start⟩
    · exact And.left
  | cons c cs ih =>
    rw [countFrom, List.forall_mem_cons, Nat.ofDigitChars_cons, Nat.mul_comm]
    by_cases hc : c.isDigit = true
    · rw [if_pos hc]
      dsimp only
      split
      · next hlonger =>
        rw [ih hlonger]
        simp only [hc, true_and]
      · next hlonger =>
        simp only [reduceCtorEq, false_iff, not_and]
        rintro - rfl hn
        exact hlonger (Nat.lt_of_le_of_lt (le_ofDigitChars cs _) hn)
    · simp [hc]

theorem countDigits_eq_ok_iff {text : String} {digits : List Char} :
    countDigits text = .ok digits ↔ digits ≠ [] ∧
      (text.toList = '+' :: digits ∨ text.toList = digits ∧ digits.head? ≠ some '+') := by
  unfold countDigits
  split
  · next hnil =>
    simp only [reduceCtorEq, false_iff, hnil, not_and, false_or]
    rintro hne rfl
    exact absurd rfl hne
  · next hsign =>
    simp only [reduceCtorEq, false_iff, hsign, not_and]
    rintro hne (h | ⟨rfl, hhead⟩)
    · exact hne (List.cons.inj h).2.symm
    · exact hhead rfl
  · next others hne hsign =>
    rw [Except.ok.injEq, hsign]
    constructor
    · rintro rfl
      exact ⟨hne, .inl rfl⟩
    · rintro ⟨-, h | ⟨rfl, hhead⟩⟩
      · exact (List.cons.inj h).2
      · exact absurd rfl hhead
  · next hnil _ hsign =>
    rw [Except.ok.injEq]
    constructor
    · rintro rfl
      refine ⟨hnil, .inr ⟨rfl, fun hhead => ?_⟩⟩
      obtain ⟨others, hothers⟩ := List.head?_eq_some_iff.mp hhead
      exact hsign others hothers
    · rintro ⟨-, h | ⟨h, -⟩⟩
      · exact absurd h (hsign digits)
      · exact h

theorem count_eq_ok_iff {text : String} {n : UInt64} : count text = .ok n ↔ Denotes text n := by
  have hzero : 0 < countLimit := by decide
  constructor
  · intro h
    obtain ⟨digits, hdigits, h⟩ := bind_eq_ok_iff.mp h
    obtain ⟨m, hm, h⟩ := bind_eq_ok_iff.mp h
    obtain rfl := pure_eq_ok_iff.mp h
    obtain ⟨hne, hspelled⟩ := countDigits_eq_ok_iff.mp hdigits
    obtain ⟨hall, rfl, hlt⟩ := (countFrom_eq_ok_iff hzero).mp hm
    exact ⟨digits, hspelled.symm.imp_left And.left, hne, hall,
      (UInt64.toNat_ofNat_of_lt hlt).symm⟩
  · rintro ⟨digits, hspelled, hne, hall, hvalue⟩
    have hhead : digits.head? ≠ some '+' := fun hhead => by
      have hplus := hall '+' (List.mem_of_head? hhead)
      exact absurd hplus (by decide)
    have hdigits : countDigits text = .ok digits :=
      countDigits_eq_ok_iff.mpr ⟨hne, hspelled.symm.imp_right fun h => ⟨h, hhead⟩⟩
    have hfrom : countFrom 0 digits = .ok n.toNat :=
      (countFrom_eq_ok_iff hzero).mpr ⟨hall, hvalue, n.toNat_lt⟩
    rw [count, hdigits]
    change (countFrom 0 digits >>= _) = _
    rw [hfrom]
    exact congrArg Except.ok UInt64.ofNat_toNat

end NativeBridge.Text
