import NativeBridge.Proofs.Json.Reading
import NativeBridge.Proofs.Text.Count

/-! # Counts read back

A count is printed with the decimal digits of its number. They are absorbed one by one, and since
the number is within the limit no digit is left over.
-/

namespace NativeBridge.Json

open Text (bytes bytes_cons_of_ascii bytes_eq_map countLimit le_ofDigitChars)

section Digits

variable {c : Char} {cs : List Char}

theorem toNat_of_isDigit (h : c.isDigit = true) : 48 ≤ c.toNat ∧ c.toNat ≤ 57 := by
  simpa [Char.isDigit, UInt32.le_iff_toNat_le] using h

theorem ascii_of_isDigit (h : c.isDigit = true) : c.toNat < 128 :=
  Nat.lt_of_le_of_lt (toNat_of_isDigit h).2 (by decide)

theorem isDigit_toUInt8 (h : c.isDigit = true) : isDigit c.toUInt8 = true := by
  simp [isDigit, UInt8.le_iff_toNat_le, toNat_toUInt8 (ascii_of_isDigit h), toNat_of_isDigit h]

theorem spells_eq_false_of_isDigit (h : c.isDigit = true) {d : Char} (hd : d.toNat < 48) :
    spells d c.toUInt8 = false := by
  have hle := (toNat_of_isDigit h).1
  apply spells_eq_false (by omega) (ascii_of_isDigit h)
  rintro rfl
  omega

theorem isMark_of_isDigit (h : c.isDigit = true) : IsMark c := by
  refine ⟨ascii_of_isDigit h, ?_⟩
  simp [isBlank, spells_eq_false_of_isDigit h]

/-- Digits are absorbed to the number that they stand for, if it is within the limit. -/
theorem absorb_bytes (hcs : ∀ c ∈ cs, c.isDigit = true) {n : Nat}
    (h : Nat.ofDigitChars 10 cs n < countLimit) :
    absorb n (bytes cs) = (Nat.ofDigitChars 10 cs n, []) := by
  induction cs generalizing n with
  | nil => rfl
  | cons c cs ih =>
    obtain ⟨hc, hcs⟩ := List.forall_mem_cons.mp hcs
    rw [Nat.ofDigitChars_cons] at h ⊢
    have hascii := ascii_of_isDigit hc
    have hvalue : n * 10 + digitValue c.toUInt8 = 10 * n + (c.toNat - '0'.toNat) := by
      rw [digitValue, toNat_toUInt8 hascii, Nat.mul_comm]
      rfl
    rw [bytes_cons_of_ascii hascii, absorb, hvalue,
      if_pos (Nat.lt_of_le_of_lt (le_ofDigitChars cs _) h), ih hcs h]

theorem isDigit_of_mem_bytes (hcs : ∀ c ∈ cs, c.isDigit = true) :
    ∀ b ∈ bytes cs, isDigit b = true := by
  rw [bytes_eq_map fun c hc => ascii_of_isDigit (hcs c hc)]
  intro b hb
  obtain ⟨c, hc, rfl⟩ := List.mem_map.mp hb
  exact isDigit_toUInt8 (hcs c hc)

theorem Ends.isDigit_head? {rest : List UInt8} (h : Ends rest) :
    rest.head?.any isDigit = false := by
  cases rest with
  | nil => rfl
  | cons b r =>
    have hb := h b rfl
    simp only [goesOn, Bool.or_eq_false_iff] at hb
    exact hb.1.1

theorem takeWhile_digits {digits rest : List UInt8} (hdigits : ∀ b ∈ digits, isDigit b = true)
    (hrest : Ends rest) : (digits ++ rest).takeWhile isDigit = digits := by
  rw [List.takeWhile_append_of_pos hdigits]
  cases rest with
  | nil => rw [List.takeWhile_nil, List.append_nil]
  | cons b r =>
    rw [List.takeWhile_cons_of_neg (by simpa using hrest.isDigit_head?), List.append_nil]

theorem dropWhile_digits {digits rest : List UInt8} (hdigits : ∀ b ∈ digits, isDigit b = true)
    (hrest : Ends rest) : (digits ++ rest).dropWhile isDigit = rest := by
  rw [List.dropWhile_append_of_pos hdigits]
  cases rest with
  | nil => rfl
  | cons b r => exact List.dropWhile_cons_of_neg (by simpa using hrest.isDigit_head?)

end Digits

theorem readTail_count {rest : List UInt8} (h : Ends rest) (n : Nat) :
    readTail false n 0 rest = .ok (.count n, rest) := by
  unfold readTail
  cases rest with
  | nil => rfl
  | cons b r =>
    have hb := h b rfl
    simp only [goesOn, Bool.or_eq_false_iff] at hb
    simp [hb.1.2, hb.2]

/-- Only zero is printed with a zero in front. -/
theorem head?_toDigits_ne {n : Nat} (h : n ≠ 0) : (Nat.toDigits 10 n).head? ≠ some '0' := by
  induction n using Nat.strongRecOn with
  | ind n ih =>
    rw [Nat.toDigits_eq_if (by decide)]
    split
    · next hlt =>
      interval_cases n
      · exact absurd rfl h
      all_goals decide
    · next hge =>
      rw [List.head?_append_of_ne_nil _ Nat.toDigits_ne_nil]
      exact ih (n / 10) (by omega) (by omega)

theorem isDigit_of_mem_toDigits (n : Nat) : ∀ c ∈ Nat.toDigits 10 n, c.isDigit = true :=
  fun _ => Nat.isDigit_of_mem_toDigits (by decide) le_rfl

theorem absorb_toDigits {n : Nat} (h : n < countLimit) :
    absorb 0 (bytes (Nat.toDigits 10 n)) = (n, []) := by
  have hvalue : Nat.ofDigitChars 10 (Nat.toDigits 10 n) 0 = n :=
    Nat.ofDigitChars_toDigits (by decide) le_rfl
  rw [absorb_bytes (isDigit_of_mem_toDigits n) (by rwa [hvalue]), hvalue]

theorem exists_toDigits_cons (n : Nat) :
    ∃ c cs, Nat.toDigits 10 n = c :: cs ∧ c.isDigit = true ∧ (n ≠ 0 → c ≠ '0') := by
  cases hcs : Nat.toDigits 10 n with
  | nil => exact absurd hcs Nat.toDigits_ne_nil
  | cons c cs =>
    refine ⟨c, cs, rfl, isDigit_of_mem_toDigits n c (hcs ▸ List.mem_cons_self), ?_⟩
    rintro hn rfl
    exact head?_toDigits_ne hn (by rw [hcs]; rfl)

theorem readUnsigned_toDigits {n : Nat} (h : n < countLimit) {rest : List UInt8}
    (hrest : Ends rest) :
    readUnsigned false (bytes (Nat.toDigits 10 n) ++ rest) = .ok (.count n, rest) := by
  by_cases hzero : n = 0
  · subst hzero
    have hbytes : bytes (Nat.toDigits 10 0) ++ rest = '0'.toUInt8 :: rest := rfl
    rw [hbytes, readUnsigned, if_pos (by decide), if_neg (by simp [hrest.isDigit_head?]),
      readTail_count hrest]
  · have hbytes := isDigit_of_mem_bytes (isDigit_of_mem_toDigits n)
    have htake := takeWhile_digits hbytes hrest
    have hdrop := dropWhile_digits hbytes hrest
    have habsorb := absorb_toDigits h
    obtain ⟨c, cs, hcs, hc, hne⟩ := exists_toDigits_cons n
    have hnot : spells '0' c.toUInt8 = false :=
      spells_eq_false (by decide) (ascii_of_isDigit hc) (hne hzero).symm
    rw [hcs, bytes_cons_of_ascii (ascii_of_isDigit hc)] at htake hdrop habsorb ⊢
    rw [List.cons_append] at htake hdrop ⊢
    rw [List.dropWhile_cons_of_pos (isDigit_toUInt8 hc)] at hdrop
    rw [readUnsigned, if_neg (by simp [hnot]), if_pos (isDigit_toUInt8 hc), htake, habsorb, hdrop]
    exact readTail_count hrest n

theorem reads_number {n : Nat} (h : n < countLimit) :
    Reads Reader.number (Nat.toDigits 10 n) (.count n) := by
  have hread {rest : List UInt8} (hrest : Ends rest) := readUnsigned_toDigits h hrest
  obtain ⟨c, cs, hcs, hc, -⟩ := exists_toDigits_cons n
  rw [hcs] at hread ⊢
  refine .of_run (fun _ => rfl) (isMark_of_isDigit hc) fun rest hrest => ?_
  have hminus : spells '-' c.toUInt8 = false := spells_eq_false_of_isDigit hc (by decide)
  rw [if_pos (by simp [isDigit_toUInt8 hc]), readNumber, if_neg (by simp [hminus]),
    ← List.cons_append, ← bytes_cons_of_ascii (ascii_of_isDigit hc)]
  exact hread hrest

theorem reads_count (n : UInt64) : Reads Reader.count (printCount n) n :=
  (reads_number n.toNat_lt).filterMap (congrArg some UInt64.ofNat_toNat)

end NativeBridge.Json
