import NativeBridge.Proofs.Json.Reading

/-! # Literals read back

Every character is read back from what is printed for it, whether it is escaped by a letter, escaped
by its number or left as it stands. So a literal is read back whatever text it holds.
-/

namespace NativeBridge.Json

open Text (bytes bytes_nil bytes_append bytes_cons bytes_cons_of_ascii)

/-- Whether a byte stands for itself in a literal. -/
structure IsPlain (b : UInt8) : Prop where
  not_quote : spells '"' b = false
  not_backslash : spells '\\' b = false
  not_control : ¬b < 0x20

def onFront (front : List UInt8) (read : List UInt8 × List UInt8) : List UInt8 × List UInt8 :=
  (front ++ read.1, read.2)

theorem readBytes_quote (r : List UInt8) : readBytes ('"'.toUInt8 :: r) = .ok ([], r) := by
  rw [readBytes, if_pos (by decide)]

theorem readBytes_escape {r rest : List UInt8} {c : Char} (h : readEscape r = .ok (c, rest)) :
    readBytes ('\\'.toUInt8 :: r) = (readBytes rest).map (onFront (String.utf8EncodeChar c)) := by
  rw [readBytes, if_neg (by decide), if_pos (by decide)]
  split
  · next hread =>
    rw [h] at hread
    cases hread
  · next hread =>
    rw [h] at hread
    cases hread
    rfl

theorem readBytes_plain {front : List UInt8} (h : ∀ b ∈ front, IsPlain b) (r : List UInt8) :
    readBytes (front ++ r) = (readBytes r).map (onFront front) := by
  induction front with
  | nil =>
    rw [List.nil_append]
    cases readBytes r <;> rfl
  | cons b front ih =>
    obtain ⟨hb, hfront⟩ := List.forall_mem_cons.mp h
    rw [List.cons_append, readBytes, if_neg (by simp [hb.not_quote]),
      if_neg (by simp [hb.not_backslash]), if_neg hb.not_control, ih hfront]
    cases readBytes r <;> rfl

theorem readHex4_append {s rest : List UInt8} {n : Nat} (h : readHex4 s = .ok (n, rest))
    (r : List UInt8) : readHex4 (s ++ r) = .ok (n, rest ++ r) := by
  unfold readHex4 at h
  split at h
  · simp only [List.cons_append, readHex4]
    split at h
    · cases h
      simp only [*]
    · cases h
  · cases h

theorem readHex4_hexPadded {n : Nat} (h : n < 32) :
    readHex4 (bytes (Text.hexPadded 4 n).toList) = .ok (n, []) := by
  decide +revert +kernel

/-- A character is read from its number, which is no surrogate. -/
theorem readNumbered_of_readHex4 {s r : List UInt8} {c : Char}
    (h : readHex4 s = .ok (c.toNat, r)) : readNumbered s = .ok (c, r) := by
  have hvalid : c.toNat < 0xD800 ∨ 0xDFFF < c.toNat ∧ c.toNat < 0x110000 := c.valid
  have hlow : isLowSurrogate c.toNat = false := by
    simp only [isLowSurrogate, Bool.and_eq_false_iff, decide_eq_false_iff_not]
    omega
  have hhigh : isHighSurrogate c.toNat = false := by
    simp only [isHighSurrogate, Bool.and_eq_false_iff, decide_eq_false_iff_not]
    omega
  rw [readNumbered, h]
  simp [bind, Except.bind, hlow, hhigh]

theorem readEscape_hexPadded {c : Char} (h : c.toNat < 32) (r : List UInt8) :
    readEscape ('u'.toUInt8 :: (bytes (Text.hexPadded 4 c.toNat).toList ++ r)) = .ok (c, r) := by
  have hsimple : simpleEscape? 'u'.toUInt8 = none := by decide
  have hspells : spells 'u' 'u'.toUInt8 = true := by decide
  simp only [readEscape, hsimple, hspells, if_true]
  exact readNumbered_of_readHex4 (readHex4_append (readHex4_hexPadded h) r)

theorem isPlain_of_mem_encodeChar {c : Char} (hquote : c ≠ '"') (hbackslash : c ≠ '\\')
    (hcontrol : ¬c.toNat < 32) {b : UInt8} (hb : b ∈ String.utf8EncodeChar c) : IsPlain b := by
  by_cases hc : c.toNat < 128
  · rw [Text.encodeChar_of_ascii hc, List.mem_singleton] at hb
    subst hb
    refine ⟨spells_eq_false (by decide) hc hquote.symm,
      spells_eq_false (by decide) hc hbackslash.symm, ?_⟩
    rwa [UInt8.lt_iff_toNat_lt, toNat_toUInt8 hc]
  · have hle := Text.le_of_mem_encodeChar (Nat.le_of_not_lt hc) hb
    have hspells {d : Char} (hd : d.toNat < 128) : spells d b = false := by
      rw [spells, beq_eq_false_iff_ne, Ne, ← UInt8.toNat_inj, toNat_toUInt8 hd]
      omega
    refine ⟨hspells (by decide), hspells (by decide), ?_⟩
    rw [UInt8.lt_iff_toNat_lt]
    exact Nat.not_lt_of_le (Nat.le_trans (by decide) hle)

/-- What is printed for a character is read back as its bytes. -/
theorem readBytes_printChar (c : Char) (r : List UInt8) :
    readBytes (bytes (printChar c) ++ r) =
      (readBytes r).map (onFront (String.utf8EncodeChar c)) := by
  have hescape {e d : Char} (he : e.toNat < 128) (hread : simpleEscape? e.toUInt8 = some d) :
      readBytes (bytes ['\\', e] ++ r) = (readBytes r).map (onFront (String.utf8EncodeChar d)) := by
    rw [bytes_cons_of_ascii (by decide), bytes_cons_of_ascii he, bytes_nil]
    refine readBytes_escape ?_
    simp only [List.append_eq, List.cons_append, List.nil_append, readEscape, hread]
  unfold printChar
  split
  iterate 7 exact hescape (by decide) (by decide)
  · next hquote hbackslash _ _ _ _ _ =>
    split
    · next hcontrol =>
      rw [bytes_cons_of_ascii (by decide), bytes_cons_of_ascii (by decide)]
      exact readBytes_escape (readEscape_hexPadded hcontrol r)
    · next hcontrol =>
      rw [bytes_cons, bytes_nil, List.append_nil]
      exact readBytes_plain (fun b => isPlain_of_mem_encodeChar hquote hbackslash hcontrol) r

theorem readBytes_printChars (cs : List Char) (r : List UInt8) :
    readBytes (bytes (cs.flatMap printChar) ++ '"'.toUInt8 :: r) = .ok (bytes cs, r) := by
  induction cs with
  | nil => exact readBytes_quote r
  | cons c cs ih =>
    rw [List.flatMap_cons, bytes_append, List.append_assoc, readBytes_printChar, ih, bytes_cons]
    rfl

theorem readLiteral_printChars (s : String) (r : List UInt8) :
    readLiteral (bytes (s.toList.flatMap printChar ++ ['"']) ++ r) = .ok (s, r) := by
  rw [readLiteral, bytes_append, List.append_assoc, bytes_cons_of_ascii (by decide), bytes_nil,
    List.singleton_append, readBytes_printChars]
  have hdecode : Text.decode? (bytes s.toList) = some s := Text.decode?_encode s
  simp only [bind, Except.bind, hdecode]

theorem isMark_quote : IsMark '"' :=
  ⟨by decide, by decide⟩

theorem printText_eq (s : String) :
    printText s = '"' :: (s.toList.flatMap printChar ++ ['"']) :=
  rfl

theorem reads_key (s : String) : Reads Reader.key (printText s) s := by
  rw [printText_eq]
  refine .of_run (fun _ => rfl) isMark_quote fun rest _ => ?_
  rw [if_pos (by decide), readLiteral_printChars]

theorem reads_text (s : String) : Reads Reader.text (printText s) s := by
  rw [printText_eq]
  refine .of_run (fun _ => rfl) isMark_quote fun rest _ => ?_
  rw [if_pos (by decide), readLiteral_printChars]

theorem reads_optionalText (s : Option String) :
    Reads Reader.optionalText (printOptionalText s) s := by
  cases s with
  | none =>
    have hprint : printOptionalText none = 'n' :: ['u', 'l', 'l'] := by decide
    rw [hprint]
    refine .of_run (fun _ => rfl) ⟨by decide, by decide⟩ fun rest _ => ?_
    rw [if_pos (by decide)]
    exact word_bytes (by simp) none rest
  | some s =>
    have hread := (reads_text s).map some
    rw [printOptionalText]
    rw [printText_eq] at hread ⊢
    refine .of_run (fun _ => rfl) isMark_quote fun rest hrest => ?_
    rw [if_neg (by decide)]
    exact hread.run_cons isMark_quote.ascii hrest

/-- A choice is read back from the name of one of its values. -/
theorem reads_choice {α : Type} {ofName? : String → Option α} {name : String} {a : α}
    (h : ofName? name = some a) : Reads (Reader.choice ofName?) (printText name) a := by
  have hread := (reads_text name).filterMap h
  rw [printText_eq] at hread ⊢
  refine .of_run (fun _ => rfl) isMark_quote fun rest hrest => ?_
  rw [if_pos (by decide)]
  exact hread.run_cons isMark_quote.ascii hrest

end NativeBridge.Json
