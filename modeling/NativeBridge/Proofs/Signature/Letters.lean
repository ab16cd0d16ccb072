import NativeBridge.Proofs.Checked
import NativeBridge.Signature.Letters

/-! # Letters of a signature

The compact form of a signature is its tag string and the letter of its result. It is read back as
the signature unless an argument is void, and nothing else is read as that signature.
-/

namespace NativeBridge

open Checked

namespace Signature

variable {sig : Signature}

theorem readLetter_eq_ok_iff {ε : Type} {c : Char} {tag : Tag} {miss : ε} :
    (match Tag.ofLetter? c with
      | some found => Except.ok found
      | none => .error miss) = .ok tag ↔ c = tag.letter := by
  constructor
  · intro h
    split at h
    · next found hfound =>
      obtain rfl := Except.ok.inj h
      exact (Tag.ofLetter?_eq_some_iff.mp hfound).symm
    · cases h
  · rintro rfl
    rw [Tag.ofLetter?_letter]

/-- A signature is read from its own letters only. -/
theorem ofLetters_eq_ok_iff {args : String} {ret : Char} : ofLetters args ret = .ok sig ↔
    .void ∉ sig.args ∧ args = sig.tagString ∧ ret = sig.ret.letter := by
  constructor
  · intro h
    obtain ⟨tags, htags, h⟩ := bind_eq_ok_iff.mp h
    have hargs : args.toList = tags.map Tag.letter := by
      rw [← List.forall₂_eq_eq_eq, List.forall₂_map_right_iff]
      exact (mapM_eq_ok_iff.mp htags).imp fun _ _ => readLetter_eq_ok_iff.mp
    split at h
    · next tag htag =>
      obtain ⟨hvoid, rfl⟩ := ofTags_eq_ok_iff.mp h
      refine ⟨hvoid, ?_, (Tag.ofLetter?_eq_some_iff.mp htag).symm⟩
      rw [← String.toList_inj, toList_tagString, hargs]
    · cases h
  · rintro ⟨hvoid, rfl, rfl⟩
    exact ofLetters_tagString hvoid

end Signature

end NativeBridge
