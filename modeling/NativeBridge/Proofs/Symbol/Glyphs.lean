import NativeBridge.Symbol

/-! # Glyphs that are read back

A sequence of glyphs is read back from its characters unless a separator is taken for the beginning
of another glyph. It is kept apart by a character that makes no escape.
-/

namespace NativeBridge.Symbol

/-- Whether every separator stands before a character that makes no other glyph of it. -/
def Separated : List Glyph → Prop
  | [] => True
  | .separator :: r => (∃ c after, r = .plain c :: after ∧ Glyph.escaped? c = none) ∧ Separated r
  | _ :: r => Separated r

theorem separated_cons_iff {g : Glyph} {r : List Glyph} : Separated (g :: r) ↔
    (g = .separator → ∃ c after, r = .plain c :: after ∧ Glyph.escaped? c = none) ∧
      Separated r := by
  cases g <;> simp [Separated]

theorem separated_append_iff {before after : List Glyph} (h : .separator ∉ before) :
    Separated (before ++ after) ↔ Separated after := by
  induction before with
  | nil => rfl
  | cons g before ih =>
    rw [List.mem_cons, not_or] at h
    rw [List.cons_append, separated_cons_iff, ih h.2]
    simp [Ne.symm h.1]

namespace Glyph

theorem escaped?_ne_separator (e : Char) : escaped? e ≠ some separator := by
  unfold escaped?
  split <;> simp

theorem ofChars_escaped {e : Char} {g : Glyph} (h : escaped? e = some g) (after : List Char) :
    ofChars ('_' :: e :: after) = g :: ofChars after := by
  rw [ofChars, if_pos rfl]
  simp only [h]

theorem ofChars_plain {c : Char} (h : c ≠ '_') (after : List Char) :
    ofChars (c :: after) = plain c :: ofChars after := by
  rw [ofChars.eq_def]
  exact if_neg h

theorem ofChars_separator {c : Char} (h : escaped? c = none) (after : List Char) :
    ofChars ('_' :: c :: after) = separator :: ofChars (c :: after) := by
  rw [ofChars, if_pos rfl]
  simp only [h]

theorem toChars_cons (g : Glyph) (r : List Glyph) : toChars (g :: r) = g.chars ++ toChars r := rfl

/-- An underscore is read as a separator only before a character that makes no escape. -/
theorem ofChars_eq_separator_iff {r : List Glyph} (hplain : ∀ c, .plain c ∈ r → c ≠ '_') :
    ofChars ('_' :: toChars r) = separator :: r ↔
      (∃ c after, r = .plain c :: after ∧ escaped? c = none) ∧ ofChars (toChars r) = r := by
  constructor
  · intro h
    cases r with
    | nil => cases h
    | cons g after =>
      by_cases hg : ∃ c, g = .plain c
      · obtain ⟨c, rfl⟩ := hg
        rw [toChars_cons, chars, List.singleton_append] at h ⊢
        cases he : escaped? c with
        | none =>
          rw [ofChars_separator he] at h
          exact ⟨⟨c, after, rfl, he⟩, (List.cons.inj h).2⟩
        | some g =>
          rw [ofChars_escaped he] at h
          exact absurd ((List.cons.inj h).1 ▸ he) (escaped?_ne_separator c)
      · -- every other glyph starts with an underscore, which makes a boundary
        have hunder : ∃ rest, toChars (g :: after) = '_' :: rest := by
          rw [toChars_cons]
          cases g with
          | plain c => exact absurd ⟨c, rfl⟩ hg
          | _ => exact ⟨_, rfl⟩
        obtain ⟨rest, hrest⟩ := hunder
        rw [hrest, ofChars_escaped (g := .boundary) rfl] at h
        cases h
  · rintro ⟨⟨c, after, rfl, he⟩, h⟩
    rw [toChars_cons, chars, List.singleton_append] at h ⊢
    rw [ofChars_separator he, h]

theorem ofChars_toChars_iff {gs : List Glyph} (hplain : ∀ c, .plain c ∈ gs → c ≠ '_')
    (hdangling : .dangling ∉ gs) : ofChars (toChars gs) = gs ↔ Separated gs := by
  induction gs with
  | nil => simp [toChars, ofChars, Separated]
  | cons g r ih =>
    rw [List.mem_cons, not_or] at hdangling
    have ihr := ih (fun c hc => hplain c (List.mem_cons_of_mem _ hc)) hdangling.2
    cases g with
    | plain c =>
      rw [toChars_cons, chars, List.singleton_append, ofChars_plain (hplain c List.mem_cons_self),
        List.cons.injEq, ihr]
      simp [Separated]
    | separator =>
      rw [toChars_cons, chars, List.singleton_append,
        ofChars_eq_separator_iff fun c hc => hplain c (List.mem_cons_of_mem _ hc), ihr]
      rfl
    | dangling => exact absurd rfl hdangling.1
    | unicode | underscore | semicolon | bracket | boundary =>
      rw [toChars_cons, chars, List.cons_append, List.singleton_append, ofChars_escaped rfl,
        List.cons.injEq, ihr]
      simp [Separated]

/-- What is read as a plain glyph is a character of the text other than an underscore. -/
theorem mem_toChars_of_plain_mem_ofChars {cs : List Char} {c : Char} (h : .plain c ∈ ofChars cs) :
    c ∈ cs ∧ c ≠ '_' := by
  fun_induction ofChars cs with
  | case1 => cases h
  | case2 => simp at h
  | case3 e after g hg ih =>
    rcases List.mem_cons.mp h with rfl | h
    · cases chars_of_escaped? hg
    · exact ⟨List.mem_cons_of_mem _ (List.mem_cons_of_mem _ (ih h).1), (ih h).2⟩
  | case4 e after _ ih =>
    rcases List.mem_cons.mp h with h | h
    · cases h
    · exact ⟨List.mem_cons_of_mem _ (ih h).1, (ih h).2⟩
  | case5 c' r hc ih =>
    rcases List.mem_cons.mp h with h | h
    · obtain rfl := Glyph.plain.inj h
      exact ⟨List.mem_cons_self, hc⟩
    · exact ⟨List.mem_cons_of_mem _ (ih h).1, (ih h).2⟩

end Glyph

end NativeBridge.Symbol
