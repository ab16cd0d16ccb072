import NativeBridge.Proofs.Descriptor.Grammar
import NativeBridge.Text.Pieces

/-! # The argument section of a descriptor

The parameters of a descriptor stand in the only parentheses of its text, unless a class name holds
others. So a text in parentheses occurs in a descriptor exactly if it is the argument section.
-/

namespace NativeBridge

open Text

/-- Between the only parentheses of a text stands what occurs there in parentheses. -/
theorem occurs_parenthesized_iff {inside rest : List Char} (hopen : '(' ∉ inside)
    (hclose : ')' ∉ inside) (hopen' : '(' ∉ rest) (hclose' : ')' ∉ rest) (inner : List Char) :
    occurs ('(' :: inner ++ [')']) ('(' :: (inside ++ ')' :: rest)) = true ↔ inside = inner := by
  have hrest : '(' ∉ inside ++ ')' :: rest := by
    simp [hopen, hopen']
  rw [occurs_iff]
  constructor
  · rintro ⟨before, after, h⟩
    have hsplit : [] ++ '(' :: (inside ++ ')' :: rest) =
        before ++ '(' :: (inner ++ ')' :: after) := by
      simpa using h
    obtain ⟨-, -, hinner⟩ := (List.append_cons_inj_of_notMem List.not_mem_nil hrest).mp hsplit
    exact ((List.append_cons_inj_of_notMem hclose hclose').mp hinner).1
  · rintro rfl
    exact ⟨[], rest, by simp⟩

namespace FieldType

def Unparenthesized : FieldType → Prop
  | primitive _ => True
  | object className => '(' ∉ className ∧ ')' ∉ className
  | array element => element.Unparenthesized

theorem Unparenthesized.not_mem_chars {f : FieldType} (h : f.Unparenthesized) :
    '(' ∉ f.chars ∧ ')' ∉ f.chars := by
  induction f with
  | primitive p => cases p <;> decide
  | object className =>
    obtain ⟨hopen, hclose⟩ := h
    simp [chars, hopen, hclose]
  | array element ih =>
    obtain ⟨hopen, hclose⟩ := ih h
    simp [chars, hopen, hclose]

end FieldType

namespace Descriptor

def Unparenthesized (d : Descriptor) : Prop :=
  (∀ f ∈ d.parameters, f.Unparenthesized) ∧ ∀ f ∈ d.result, f.Unparenthesized

/-- The argument section of a text that is a descriptor: the parameters in their parentheses. -/
def arguments? (text : String) : Option String :=
  match parse text with
  | .ok d => some (String.ofList ('(' :: d.parameters.flatMap FieldType.chars ++ [')']))
  | .error _ => none

variable {d : Descriptor}

theorem arguments?_eq_some_iff {text : String} (h : parse text = .ok d) {inner : List Char} :
    arguments? text = some (String.ofList ('(' :: inner ++ [')'])) ↔
      d.parameters.flatMap FieldType.chars = inner := by
  simp [arguments?, h, String.ofList_inj]

namespace Unparenthesized

theorem not_mem_parameters (h : d.Unparenthesized) :
    '(' ∉ d.parameters.flatMap FieldType.chars ∧ ')' ∉ d.parameters.flatMap FieldType.chars := by
  simp only [List.mem_flatMap, not_exists, not_and]
  exact ⟨fun f hf => (h.1 f hf).not_mem_chars.1, fun f hf => (h.1 f hf).not_mem_chars.2⟩

theorem not_mem_resultChars (h : d.Unparenthesized) :
    '(' ∉ resultChars d.result ∧ ')' ∉ resultChars d.result := by
  cases hresult : d.result with
  | none => decide
  | some f => exact (h.2 f hresult).not_mem_chars

theorem occurs_chars_iff (h : d.Unparenthesized) (inner : List Char) :
    occurs ('(' :: inner ++ [')']) d.chars = true ↔
      d.parameters.flatMap FieldType.chars = inner := by
  obtain ⟨hopen, hclose⟩ := h.not_mem_parameters
  obtain ⟨hopen', hclose'⟩ := h.not_mem_resultChars
  rw [chars_eq]
  exact occurs_parenthesized_iff hopen hclose hopen' hclose' inner

theorem contains_iff {text : String} (h : d.Unparenthesized) (hparse : parse text = .ok d)
    (inner : List Char) : contains text (String.ofList ('(' :: inner ++ [')'])) = true ↔
      arguments? text = some (String.ofList ('(' :: inner ++ [')'])) := by
  obtain ⟨-, rfl⟩ := parse_eq_ok_iff.mp hparse
  rw [arguments?_eq_some_iff hparse, contains, Descriptor.text, String.toList_ofList,
    String.toList_ofList, h.occurs_chars_iff]

end Unparenthesized

end Descriptor

end NativeBridge
