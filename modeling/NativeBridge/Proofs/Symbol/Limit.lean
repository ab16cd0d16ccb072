import NativeBridge.Proofs.Symbol.Uniqueness

/-! # The length of symbol names

Reading and writing refuse a symbol name for its length under one condition, on the bytes after the
prefix. Every other answer is a matter of form. The limit that is reported is itself refused.
-/

namespace NativeBridge.Symbol

open Checked Text

/-- Whether an answer about a text of `size` bytes after the prefix is that the text is too long
from the limit on and depends, below the limit, on its form. -/
structure Judged {α : Type} (answer : Except Fault α) (size : Nat) (formed : α → Prop) :
    Prop where
  tooLong_iff : ∀ reported limit, answer = .error (.nameTooLong reported limit) ↔
    maxLength ≤ size ∧ reported = size ∧ limit = maxLength
  ok_iff : ∀ a, answer = .ok a ↔ size < maxLength ∧ formed a
  malformed_iff : (∃ fault, answer = .error fault ∧ IsMalformed fault) ↔
    size < maxLength ∧ ¬∃ a, formed a

def RefusesExcess {α : Type} (answer : Except Fault α) (size : Nat) : Prop :=
  (∃ reported limit, answer = .error (.nameTooLong reported limit)) ↔ maxLength < size

/-- The limit itself is the one size at which it is not the excess that is refused. -/
theorem Judged.refusesExcess_iff {α : Type} {answer : Except Fault α} {size : Nat}
    {formed : α → Prop} (h : Judged answer size formed) :
    RefusesExcess answer size ↔ size ≠ maxLength := by
  have htooLong : (∃ reported limit, answer = .error (.nameTooLong reported limit)) ↔
      maxLength ≤ size := by
    simp only [h.tooLong_iff]
    constructor
    · rintro ⟨_, _, hsize, -, -⟩
      exact hsize
    · intro hsize
      exact ⟨size, maxLength, hsize, rfl, rfl⟩
  rw [RefusesExcess, htooLong]
  omega

theorem not_isMalformed_nameTooLong (size limit : Nat) :
    ¬IsMalformed (.nameTooLong size limit) := by
  rintro ⟨_, _, h⟩
  cases h

/-- The law for answers that are left to the form once the length has been looked at. -/
theorem judged_of_form {α : Type} {form : Except Fault α} {formed : α → Prop}
    (hok : ∀ a, form = .ok a ↔ formed a) (hrefused : RefusedOnly IsMalformed form) (size : Nat) :
    Judged (if maxLength ≤ size then .error (.nameTooLong size maxLength) else form) size
      formed := by
  by_cases hsize : maxLength ≤ size
  · rw [if_pos hsize]
    have hnot : ¬size < maxLength := Nat.not_lt_of_le hsize
    refine ⟨fun reported limit => ?_, fun a => ?_, ?_⟩
    · simp [hsize, eq_comm]
    · simp [hnot]
    · refine iff_of_false ?_ fun h => hnot h.1
      rintro ⟨_, ⟨⟩, h⟩
      exact not_isMalformed_nameTooLong _ _ h
  · rw [if_neg hsize]
    have hlt : size < maxLength := Nat.lt_of_not_le hsize
    refine ⟨fun reported limit => ?_, fun a => ?_, ?_⟩
    · refine iff_of_false (fun h => ?_) fun h => hsize h.1
      exact not_isMalformed_nameTooLong _ _ (hrefused _ h)
    · rw [hok, and_iff_right hlt]
    · rw [and_iff_right hlt]
      constructor
      · rintro ⟨fault, hfault, -⟩ ⟨a, ha⟩
        rw [(hok a).mpr ha] at hfault
        cases hfault
      · intro hnone
        cases hform : form with
        | error fault => exact ⟨fault, rfl, hrefused fault hform⟩
        | ok a => exact absurd ⟨a, (hok a).mp hform⟩ hnone

theorem demangle_judged {text : String} {body : List Char} (hbody : body? text = some body) :
    Judged (demangle text) (byteLength body) (SymbolText text) := by
  have hdemangle : demangle text =
      if maxLength ≤ byteLength body then .error (.nameTooLong (byteLength body) maxLength)
      else (readName 0 (Glyph.ofChars body) >>= Spelled.method).mapError
        (.malformedSymbol text) := by
    rw [demangle, hbody]
  rw [hdemangle]
  refine judged_of_form (fun id => ?_) ?_ _
  · rw [mapError_eq_ok_iff, symbolText_iff hbody]
  · exact .mapError (isMalformed_malformedSymbol text) _

theorem mangle_judged {id : MethodId} {s : Spelled} (hs : spelled? id = some s)
    (hspellable : s.Spellable) :
    Judged (mangle id) (byteLength (Glyph.toChars s.glyphs))
      (· = String.ofList (namePrefix.toList ++ Glyph.toChars s.glyphs)) := by
  have hglyphs : glyphs id = .ok s.glyphs := glyphs_eq_ok_iff.mpr ⟨s, hs, hspellable, rfl⟩
  have hmangle : mangle id =
      if maxLength ≤ byteLength (Glyph.toChars s.glyphs) then
        .error (.nameTooLong (byteLength (Glyph.toChars s.glyphs)) maxLength)
      else .ok (String.ofList (namePrefix.toList ++ Glyph.toChars s.glyphs)) := by
    rw [mangle, hglyphs]
    rfl
  rw [hmangle]
  refine judged_of_form (fun symbol => ?_) (.ok _) _
  rw [Except.ok.injEq, eq_comm]

/-- A text is refused for its length exactly when it has `maxLength` bytes or more after the prefix,
and so is a method that has a spelling, by the bytes of this spelling. The size is reported with the
limit, which it may equal: at the limit itself, and only there, a text is refused that does not
exceed it. Below the limit every text and every method is judged by its form, and a method without a
spelling is malformed at any length. -/
theorem length_judged (body : List Char) (id : MethodId) :
    let text := String.ofList (namePrefix.toList ++ body)
    (Judged (demangle text) (byteLength body) (SymbolText text) ∧
      (RefusesExcess (demangle text) (byteLength body) ↔ byteLength body ≠ maxLength)) ∧
    (∀ s, spelled? id = some s → s.Spellable →
      let spelling := Glyph.toChars s.glyphs
      Judged (mangle id) (byteLength spelling)
          (· = String.ofList (namePrefix.toList ++ spelling)) ∧
        (RefusesExcess (mangle id) (byteLength spelling) ↔ byteLength spelling ≠ maxLength)) ∧
    ((∀ s, spelled? id = some s → ¬s.Spellable) →
      ∃ fault, mangle id = .error fault ∧ IsMalformed fault) := by
  refine ⟨?_, fun s hs hspellable => ?_, mangle_malformed_of_not_spellable⟩
  · have hbody : body? (String.ofList (namePrefix.toList ++ body)) = some body :=
      body?_eq_some_iff.mpr rfl
    have h := demangle_judged hbody
    exact ⟨h, h.refusesExcess_iff⟩
  · have h := mangle_judged hs hspellable
    exact ⟨h, h.refusesExcess_iff⟩

theorem isSegment_replicate {c : Char} (hc : IsNameChar c) (hdigit : c.isDigit = false) {n : Nat}
    (hn : n ≠ 0) : IsSegment (List.replicate n c) := by
  refine ⟨by simpa using hn, fun d hd => ?_, fun d hd => ?_⟩
  · rwa [List.eq_of_mem_replicate (List.mem_of_mem_head? hd)]
  · rwa [List.eq_of_mem_replicate hd]

theorem length_judged_at_limit :
    demangle (String.ofList (namePrefix.toList ++ 'a' :: '_' :: List.replicate 1022 'b')) =
        .error (.nameTooLong 1024 1024) ∧
      mangle ⟨"a", String.ofList (List.replicate 1022 'b'), none⟩ =
        .error (.nameTooLong 1024 1024) := by
  obtain ⟨⟨hdemangle, -⟩, hmangle, -⟩ := length_judged ('a' :: '_' :: List.replicate 1022 'b')
    ⟨"a", String.ofList (List.replicate 1022 'b'), none⟩
  have hspelled (name : List Char) :
      spelled? ⟨"a", String.ofList name, none⟩ = some ⟨[['a'], name], none⟩ := by
    simp [spelled?, pieces]
  have hspellable : Spelled.Spellable ⟨[['a'], List.replicate 1022 'b'], none⟩ := by
    refine ⟨?_, fun cs hcs => by cases hcs⟩
    rw [List.forall_mem_cons, List.forall_mem_singleton]
    constructor
    · exact isSegment_replicate (.inr rfl) rfl Nat.one_ne_zero
    · exact isSegment_replicate (.inr rfl) rfl (by omega)
  constructor
  · exact (hdemangle.tooLong_iff _ _).mpr (by decide +kernel)
  · exact ((hmangle _ (hspelled _) hspellable).1.tooLong_iff _ _).mpr (by decide +kernel)

end NativeBridge.Symbol
