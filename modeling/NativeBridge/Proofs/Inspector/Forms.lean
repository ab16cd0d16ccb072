import NativeBridge.Inspector.Session
import NativeBridge.Proofs.Descriptor.Canonical
import NativeBridge.Proofs.Signature.Letters

/-! # The two forms of a signature

The inspector is given a signature as a descriptor or as letters. A descriptor and the letters of
its native signature are the same to it, so that it shows the same for either.
-/

namespace NativeBridge.Inspector

open Checked

/-- The letters of a signature, with a colon in front of the last one. -/
def tagForm (sig : Signature) : String :=
  sig.tagString ++ ":" ++ sig.ret.letter.toString

variable {sig : Signature} {text : String}

theorem toList_tagForm (sig : Signature) :
    (tagForm sig).toList = sig.args.map Tag.letter ++ [':', sig.ret.letter] := by
  simp [tagForm, Signature.toList_tagString]

theorem letter_ne_mark (tag : Tag) : tag.letter ≠ '(' ∧ tag.letter ≠ ':' := by
  cases tag <;> decide

theorem head?_tagForm (sig : Signature) : (tagForm sig).toList.head? ≠ some '(' := by
  rw [toList_tagForm]
  cases sig.args with
  | nil => simp
  | cons tag others => simp [(letter_ne_mark tag).1]

theorem head?_of_decode (h : Descriptor.decode text = .ok sig) : text.toList.head? = some '(' := by
  obtain ⟨d, -, rfl, -⟩ := Descriptor.decode_eq_ok_iff.mp h
  rw [Descriptor.text, String.toList_ofList, Descriptor.chars_eq]
  rfl

theorem signature_of_decode (h : Descriptor.decode text = .ok sig) :
    signature text = .ok sig.native := by
  rw [signature, if_pos (head?_of_decode h), h]
  rfl

/-- No letter is a colon, so the letters are cut apart at the one between them. -/
theorem signature_tagForm (h : .void ∉ sig.args) : signature (tagForm sig) = .ok sig := by
  have hletters : ∀ c ∈ sig.args.map Tag.letter, (c != ':') = true := by
    simp [letter_ne_mark]
  have htake : (tagForm sig).toList.takeWhile (· != ':') = sig.args.map Tag.letter := by
    rw [toList_tagForm, List.takeWhile_append_of_pos hletters]
    simp
  have hdrop : (tagForm sig).toList.dropWhile (· != ':') = [':', sig.ret.letter] := by
    rw [toList_tagForm, List.dropWhile_append_of_pos hletters]
    simp
  rw [signature, if_neg (head?_tagForm sig), hdrop, htake]
  change Except.mapError _ (Signature.ofLetters sig.tagString sig.ret.letter) = _
  rw [Signature.ofLetters_tagString h]
  rfl

/-- The commands that show something of a signature, and what they show of it. -/
inductive Shows : String → (Signature → Except Fault String) → Prop
  | plan : Shows "plan" plan
  | asm : Shows "asm" assemble

variable {command : String} {shown : Signature → Except Fault String}

theorem run_of_signature (hshows : Shows command shown) (h : signature text = .ok sig)
    (rest : List String) :
    run (command :: text :: rest) = (shown sig).mapError .refused := by
  cases hshows with
  | plan =>
    change (signature text >>= fun sig => (plan sig).mapError .refused) = _
    rw [h]
    rfl
  | asm =>
    change (signature text >>= fun sig => (assemble sig).mapError .refused) = _
    rw [h]
    rfl

/-- A command line with another signature in the place of the one that it has. -/
theorem start_of_run_eq (hshows : Shows command shown) {other : String} {rest : List String}
    (h : run (command :: text :: rest) = run (command :: other :: rest))
    (readings : List Reading) :
    start (command :: text :: rest) readings = start (command :: other :: rest) readings := by
  unfold start
  rw [h]
  cases hshows <;> rfl

/-- For a descriptor and for the letters of its native signature the inspector shows the same, and
it is what the signature gives. Letters stand for the one signature that has them. -/
theorem forms_agree (sig : Signature) :
    (∀ descriptor, Descriptor.decode descriptor = .ok sig →
      ∀ command shown, Shows command shown → ∀ rest readings,
        run (command :: descriptor :: rest) = (shown sig.native).mapError .refused ∧
        run (command :: tagForm sig.native :: rest) = (shown sig.native).mapError .refused ∧
        start (command :: descriptor :: rest) readings =
          start (command :: tagForm sig.native :: rest) readings) ∧
    ∀ args ret, Signature.ofLetters args ret = .ok sig ↔
      .void ∉ sig.args ∧ args = sig.tagString ∧ ret = sig.ret.letter := by
  constructor
  · intro descriptor hdecode command shown hshows rest readings
    have hvoid : .void ∉ sig.native.args := by
      simpa [Signature.native] using (Descriptor.describable_of_decode hdecode).void_not_mem
    have hdescriptor := run_of_signature hshows (signature_of_decode hdecode) rest
    have hletters := run_of_signature hshows (signature_tagForm hvoid) rest
    exact ⟨hdescriptor, hletters,
      start_of_run_eq hshows (hdescriptor.trans hletters.symm) readings⟩
  · intro args ret
    exact Signature.ofLetters_eq_ok_iff

def mixedText : String := "(I[Ljava/lang/String;D)Z"

theorem forms_agree_mixed :
    Descriptor.decode mixedText = .ok ⟨[.int, .pointer, .double], .ubyte⟩ ∧
      run ["plan", mixedText] = run ["plan", "ppipd:C"] ∧
      start ["asm", mixedText] [] = start ["asm", "ppipd:C"] [] ∧
      Signature.ofLetters "ppipd" 'C' =
        .ok ⟨[.pointer, .pointer, .int, .pointer, .double], .ubyte⟩ := by
  have hdecode : Descriptor.decode mixedText = .ok ⟨[.int, .pointer, .double], .ubyte⟩ := by
    decide +kernel
  obtain ⟨hforms, -⟩ := forms_agree ⟨[.int, .pointer, .double], .ubyte⟩
  obtain ⟨hdescriptor, hletters, -⟩ := hforms mixedText hdecode "plan" plan .plan [] []
  obtain ⟨-, -, hstart⟩ := hforms mixedText hdecode "asm" assemble .asm [] []
  refine ⟨hdecode, hdescriptor.trans hletters.symm, hstart, ?_⟩
  exact ((forms_agree _).2 "ppipd" 'C').mpr ⟨by decide, rfl, rfl⟩

end NativeBridge.Inspector
