/-! # Cutting and searching text

Texts are cut at separator characters and searched for fragments. Joining the pieces with the
separator gives the text back, and a fragment occurs exactly where a copy of it can be cut out.
-/

namespace NativeBridge.Text

variable {α : Type}

/-- The stretches between the elements that satisfy `p`, empty ones included. -/
def pieces (p : α → Bool) : List α → List (List α)
  | [] => [[]]
  | a :: r =>
    if p a then [] :: pieces p r
    else match pieces p r with
      | [] => [[a]]
      | first :: others => (a :: first) :: others

theorem pieces_ne_nil (p : α → Bool) (l : List α) : pieces p l ≠ [] := by
  cases l with
  | nil => simp [pieces]
  | cons a r => unfold pieces; split <;> (try split) <;> simp

def join (sep : α) : List (List α) → List α
  | [] => []
  | [last] => last
  | first :: second :: others => first ++ sep :: join sep (second :: others)

theorem join_cons_of_ne_nil (sep : α) (first : List α) {others : List (List α)} (h : others ≠ []) :
    join sep (first :: others) = first ++ sep :: join sep others := by
  cases others with
  | nil => exact absurd rfl h
  | cons second others => rfl

theorem join_pieces [DecidableEq α] (sep : α) (l : List α) :
    join sep (pieces (· == sep) l) = l := by
  induction l with
  | nil => rfl
  | cons a r ih =>
    have hne := pieces_ne_nil (· == sep) r
    unfold pieces
    by_cases h : a = sep
    · simp [h, join_cons_of_ne_nil sep [] hne, ih]
    · simp only [beq_iff_eq, h, if_false]
      cases hp : pieces (· == sep) r with
      | nil => exact absurd hp hne
      | cons first others =>
        rw [hp] at ih
        cases others with
        | nil => simpa [join] using ih
        | cons second others => simpa [join] using ih

def occurs [BEq α] (fragment : List α) : List α → Bool
  | [] => fragment.isEmpty
  | a :: r => fragment.isPrefixOf (a :: r) || occurs fragment r

theorem occurs_iff [BEq α] [LawfulBEq α] {fragment l : List α} :
    occurs fragment l = true ↔ ∃ before after, l = before ++ fragment ++ after := by
  induction l with
  | nil =>
    simp only [occurs, List.isEmpty_iff]
    constructor
    · rintro rfl; exact ⟨[], [], rfl⟩
    · rintro ⟨before, after, h⟩
      have := List.append_eq_nil_iff.1 h.symm
      exact (List.append_eq_nil_iff.1 this.1).2
  | cons a r ih =>
    simp only [occurs, Bool.or_eq_true, List.isPrefixOf_iff_prefix, ih]
    constructor
    · rintro (⟨after, h⟩ | ⟨before, after, h⟩)
      · exact ⟨[], after, by simpa using h.symm⟩
      · exact ⟨a :: before, after, by simp [h]⟩
    · rintro ⟨before, after, h⟩
      cases before with
      | nil => exact .inl ⟨after, by simpa using h.symm⟩
      | cons b before =>
        simp only [List.cons_append, List.cons.injEq] at h
        exact .inr ⟨before, after, h.2⟩

def contains (s fragment : String) : Bool :=
  occurs fragment.toList s.toList

end NativeBridge.Text
