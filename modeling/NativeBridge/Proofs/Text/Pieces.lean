import NativeBridge.Text.Pieces

/-! # What stands between separators

A text is cut at its separators into the pieces it was joined from, and what follows a separator is
how the next piece starts.
-/

namespace NativeBridge.Text

variable {α : Type} {sep : α}

theorem mem_join {a : α} {parts : List (List α)} (h : a ∈ join sep parts) :
    a = sep ∨ ∃ part ∈ parts, a ∈ part := by
  induction parts with
  | nil => cases h
  | cons first others ih =>
    cases others with
    | nil => exact .inr ⟨first, List.mem_cons_self, h⟩
    | cons second others =>
      rcases List.mem_append.mp h with h | h
      · exact .inr ⟨first, List.mem_cons_self, h⟩
      · rcases List.mem_cons.mp h with rfl | h
        · exact .inl rfl
        · refine (ih h).imp_right ?_
          rintro ⟨part, hpart, ha⟩
          exact ⟨part, List.mem_cons_of_mem _ hpart, ha⟩

theorem mem_join_of_mem {a : α} {part : List α} {parts : List (List α)} (hpart : part ∈ parts)
    (ha : a ∈ part) : a ∈ join sep parts := by
  induction parts with
  | nil => cases hpart
  | cons first others ih =>
    cases others with
    | nil =>
      obtain rfl := List.mem_singleton.mp hpart
      exact ha
    | cons second others =>
      rcases List.mem_cons.mp hpart with rfl | hpart
      · exact List.mem_append_left _ ha
      · exact List.mem_append_right _ (List.mem_cons_of_mem _ (ih hpart))

theorem join_cons_append (sep : α) (first : List α) (others : List (List α))
    (r : List α) : ∃ rest, join sep (first :: others) ++ r = first ++ rest := by
  cases others with
  | nil => exact ⟨r, rfl⟩
  | cons second others => exact ⟨_, List.append_assoc ..⟩

def AfterEach (sep : α) (P : List α → Prop) (l : List α) : Prop :=
  ∀ before after, l = before ++ sep :: after → P after

theorem afterEach_nil (P : List α → Prop) : AfterEach sep P [] :=
  fun before _ h => absurd h.symm (by simp)

theorem afterEach_cons_iff {P : List α → Prop} {a : α} {l : List α} :
    AfterEach sep P (a :: l) ↔ (a = sep → P l) ∧ AfterEach sep P l := by
  constructor
  · intro hall
    refine ⟨?_, ?_⟩
    · rintro rfl
      exact hall [] l rfl
    · rintro before after rfl
      exact hall (a :: before) after rfl
  · rintro ⟨ha, hall⟩ before after heq
    cases before with
    | nil =>
      obtain ⟨rfl, rfl⟩ := List.cons.inj heq
      exact ha rfl
    | cons _ before =>
      obtain ⟨-, rfl⟩ := List.cons.inj heq
      exact hall before after rfl

theorem afterEach_append_singleton_iff {P : List α → Prop} {last : α} {l : List α}
    (hlast : last ≠ sep) (hP : ∀ after, P (after ++ [last]) ↔ P after) :
    AfterEach sep P (l ++ [last]) ↔ AfterEach sep P l := by
  induction l with
  | nil => simp [afterEach_cons_iff, hlast]
  | cons a l ih => rw [List.cons_append, afterEach_cons_iff, afterEach_cons_iff, hP, ih]

section Cutting

variable [DecidableEq α]

theorem pieces_append_cons {first : List α} (h : sep ∉ first) (r : List α) :
    pieces (· == sep) (first ++ sep :: r) = first :: pieces (· == sep) r := by
  induction first with
  | nil => simp [pieces]
  | cons a first ih =>
    rw [List.mem_cons, not_or] at h
    rw [List.cons_append, pieces, ih h.2]
    simp [Ne.symm h.1]

theorem pieces_of_not_mem {last : List α} (h : sep ∉ last) : pieces (· == sep) last = [last] := by
  induction last with
  | nil => rfl
  | cons a last ih =>
    rw [List.mem_cons, not_or] at h
    rw [pieces, ih h.2]
    simp [Ne.symm h.1]

theorem pieces_join {parts : List (List α)} (hne : parts ≠ []) (h : ∀ part ∈ parts, sep ∉ part) :
    pieces (· == sep) (join sep parts) = parts := by
  induction parts with
  | nil => exact absurd rfl hne
  | cons first others ih =>
    obtain ⟨hfirst, hothers⟩ := List.forall_mem_cons.mp h
    cases others with
    | nil => exact pieces_of_not_mem hfirst
    | cons second others =>
      rw [join, pieces_append_cons hfirst, ih (by simp) hothers]

/-- Nothing but a separator is lost of how a text starts when it is cut. -/
theorem head?_of_pieces_eq_cons {l first : List α} {others : List (List α)} {a : α} (ha : a ≠ sep)
    (h : pieces (· == sep) l = first :: others) : first.head? = some a ↔ l.head? = some a := by
  cases l with
  | nil =>
    obtain ⟨rfl, -⟩ := List.cons.inj h
    rfl
  | cons b l =>
    rw [pieces] at h
    by_cases hb : b = sep
    · rw [if_pos (by simpa using hb)] at h
      obtain ⟨rfl, -⟩ := List.cons.inj h
      simp [hb, Ne.symm ha]
    · rw [if_neg (by simpa using hb)] at h
      split at h
      · obtain ⟨rfl, -⟩ := List.cons.inj h
        rfl
      · obtain ⟨rfl, -⟩ := List.cons.inj h
        rfl

theorem tail_pieces_iff {a : α} (ha : a ≠ sep) (l : List α) :
    (∀ part ∈ (pieces (· == sep) l).tail, part.head? ≠ some a) ↔
      AfterEach sep (fun after => after.head? ≠ some a) l := by
  induction l with
  | nil => simpa [pieces] using afterEach_nil _
  | cons b l ih =>
    rw [afterEach_cons_iff, ← ih, pieces]
    cases hcons : pieces (· == sep) l with
    | nil => exact absurd hcons (pieces_ne_nil _ l)
    | cons first others =>
      have hfirst := head?_of_pieces_eq_cons ha hcons
      by_cases hb : b = sep
      · rw [if_pos (by simpa using hb), List.tail_cons, List.tail_cons, List.forall_mem_cons,
          ne_eq, hfirst]
        simp only [hb, true_implies, ne_eq]
      · rw [if_neg (by simpa using hb)]
        simp [hb]

end Cutting

end NativeBridge.Text
