import Mathlib
import NativeBridge.Text.Blank

/-! # Trimmed texts

Trimming takes blanks off both ends of a text until there are none. What is left is the only part
that has none at its ends and nothing but blanks around it.
-/

namespace NativeBridge.Text

/-- Whether `value` is `text` without the blanks at both ends. -/
structure IsTrim (text value : String) : Prop where
  padded : ∃ before after, text.toList = before ++ value.toList ++ after ∧
    ∀ c ∈ before ++ after, isBlank c = true
  head : ∀ c ∈ value.toList.head?, isBlank c = false
  last : ∀ c ∈ value.toList.getLast?, isBlank c = false

theorem head_dropWhile {p : Char → Bool} {cs : List Char} :
    ∀ c ∈ (cs.dropWhile p).head?, p c = false := by
  intro c hc
  have hstop := List.head?_dropWhile_not p cs
  rwa [Option.mem_def.mp hc] at hstop

theorem dropWhile_of_head {p : Char → Bool} {cs : List Char} (h : ∀ c ∈ cs.head?, p c = false) :
    cs.dropWhile p = cs := by
  cases cs with
  | nil => rfl
  | cons c cs => exact List.dropWhile_cons_of_neg (by simp [h c rfl])

theorem isTrim_trim (text : String) : IsTrim text (trim text) := by
  let kept := text.toList.dropWhile isBlank
  have hvalue : (trim text).toList = (kept.reverse.dropWhile isBlank).reverse := by
    rw [trim, String.toList_ofList]
    rfl
  have hkept : kept = (trim text).toList ++ (kept.reverse.takeWhile isBlank).reverse := by
    rw [hvalue, ← List.reverse_append, List.takeWhile_append_dropWhile, List.reverse_reverse]
  constructor
  · refine ⟨text.toList.takeWhile isBlank, (kept.reverse.takeWhile isBlank).reverse, ?_, ?_⟩
    · rw [List.append_assoc, ← hkept, List.takeWhile_append_dropWhile]
    · intro c hc
      rw [List.mem_append, List.mem_reverse] at hc
      exact hc.elim List.mem_takeWhile_imp List.mem_takeWhile_imp
  · intro c hc
    have hfirst : c ∈ kept.head? := by
      rw [hkept, List.head?_append, Option.mem_def.mp hc]
      rfl
    exact head_dropWhile c hfirst
  · rw [hvalue, List.getLast?_reverse]
    exact head_dropWhile

theorem trimmed_padded {before inner after : List Char} (hbefore : ∀ c ∈ before, isBlank c = true)
    (hafter : ∀ c ∈ after, isBlank c = true) (hhead : ∀ c ∈ inner.head?, isBlank c = false)
    (hlast : ∀ c ∈ inner.getLast?, isBlank c = false) :
    trimmed (before ++ inner ++ after) = inner := by
  have hfront : (inner ++ after).dropWhile isBlank = if inner = [] then [] else inner ++ after := by
    cases inner with
    | nil => simpa using hafter
    | cons c cs => exact dropWhile_of_head hhead
  rw [trimmed, List.append_assoc, List.dropWhile_append_of_pos hbefore, hfront]
  split
  · next hnil =>
    rw [hnil]
    rfl
  · rw [List.reverse_append, List.dropWhile_append_of_pos (by simpa using hafter),
      dropWhile_of_head (by rwa [List.head?_reverse]), List.reverse_reverse]

theorem trim_eq_iff {text value : String} : trim text = value ↔ IsTrim text value := by
  constructor
  · rintro rfl
    exact isTrim_trim text
  · rintro ⟨⟨before, after, hpadded, hblank⟩, hhead, hlast⟩
    obtain ⟨hbefore, hafter⟩ := List.forall_mem_append.mp hblank
    rw [trim, hpadded, trimmed_padded hbefore hafter hhead hlast, String.ofList_toList]

end NativeBridge.Text
