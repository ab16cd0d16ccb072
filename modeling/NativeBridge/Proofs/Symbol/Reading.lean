import NativeBridge.Proofs.Symbol.Spelling

/-! # Reading glyphs

Reading the glyphs of segments and parameters gives these back, and glyphs whose plain characters
are letters and digits are read in one way only: they are the glyphs of what is read.
-/

namespace NativeBridge.Symbol

open Text

namespace Spelled

theorem glyphs_push {s : Spelled} (h : s.segments ≠ []) (c : Char) :
    (s.push c).glyphs = nameGlyph c :: s.glyphs := by
  obtain ⟨segments, parameters⟩ := s
  cases segments with
  | nil => exact absurd rfl h
  | cons first others =>
    cases others with
    | nil => rfl
    | cons second others => rfl

theorem glyphs_opened {s : Spelled} (h : s.segments ≠ []) :
    s.opened.glyphs = .separator :: s.glyphs := by
  obtain ⟨segments, parameters⟩ := s
  cases segments with
  | nil => exact absurd rfl h
  | cons first others => rfl

theorem slash_not_mem_push {s : Spelled} (h : s.segments ≠ [])
    (hslash : ∀ segment ∈ s.segments, '/' ∉ segment) {c : Char} (hc : c ≠ '/') :
    (s.push c).segments ≠ [] ∧ ∀ segment ∈ (s.push c).segments, '/' ∉ segment := by
  obtain ⟨segments, parameters⟩ := s
  cases segments with
  | nil => exact absurd rfl h
  | cons first others =>
    obtain ⟨hfirst, hothers⟩ := List.forall_mem_cons.mp hslash
    refine ⟨by simp [push], List.forall_mem_cons.mpr ⟨?_, hothers⟩⟩
    rw [List.mem_cons, not_or]
    exact ⟨Ne.symm hc, hfirst⟩

end Spelled

theorem inParameters_parameterGlyph {c : Char} (h : c.toNat < 128) (offset : Nat) :
    (parameterGlyph c).inParameters offset = .ok c := by
  unfold parameterGlyph
  split
  · rfl
  · rfl
  · rfl
  · unfold nameGlyph
    split
    · next hc => rw [hc]; rfl
    · exact if_pos h

theorem readParameters_map_parameterGlyph {cs : List Char} (h : ∀ c ∈ cs, c.toNat < 128)
    (offset : Nat) : readParameters offset (cs.map parameterGlyph) = .ok cs := by
  induction cs generalizing offset with
  | nil => rfl
  | cons c cs ih =>
    obtain ⟨hc, hcs⟩ := List.forall_mem_cons.mp h
    rw [List.map_cons, readParameters, inParameters_parameterGlyph hc]
    simp only [bind, Except.bind, ih hcs]
    rfl

/-- The characters of a segment are read in front of what follows. -/
theorem readName_map_nameGlyph {cs : List Char} {r : List Glyph} {segments : List (List Char)}
    {first : List Char} {parameters : Option (List Char)} (hcs : ∀ c ∈ cs, c.toNat < 128)
    (hr : ∀ offset, readName offset r = .ok ⟨first :: segments, parameters⟩) (offset : Nat) :
    readName offset (cs.map nameGlyph ++ r) = .ok ⟨(cs ++ first) :: segments, parameters⟩ := by
  induction cs generalizing offset with
  | nil => exact hr offset
  | cons c cs ih =>
    obtain ⟨hc, hcs⟩ := List.forall_mem_cons.mp hcs
    rw [List.map_cons, List.cons_append]
    by_cases hunder : c = '_'
    · rw [nameGlyph, if_pos hunder, readName, ih hcs, hunder]
      rfl
    · rw [nameGlyph, if_neg hunder, readName, if_pos hc, ih hcs]
      rfl

theorem readName_glyphs {s : Spelled} (hne : s.segments ≠ [])
    (hsegments : ∀ segment ∈ s.segments, ∀ c ∈ segment, c.toNat < 128)
    (hparameters : ∀ cs ∈ s.parameters, ∀ c ∈ cs, c.toNat < 128) (offset : Nat) :
    readName offset s.glyphs = .ok s := by
  obtain ⟨segments, parameters⟩ := s
  have htail : ∀ offset, readName offset (Spelled.parameterGlyphs ⟨segments, parameters⟩) =
      .ok ⟨[[]], parameters⟩ := by
    intro offset
    cases parameters with
    | none => rfl
    | some cs =>
      simp only [Spelled.parameterGlyphs]
      rw [readName, readParameters_map_parameterGlyph (hparameters cs rfl)]
      rfl
  clear hparameters
  induction segments generalizing offset with
  | nil => exact absurd rfl hne
  | cons first others ih =>
    obtain ⟨hfirst, hothers⟩ := List.forall_mem_cons.mp hsegments
    cases others with
    | nil =>
      have hread := readName_map_nameGlyph hfirst htail offset
      rwa [List.append_nil] at hread
    | cons second others =>
      have hrest : ∀ offset, readName offset (.separator ::
          Spelled.glyphs ⟨second :: others, parameters⟩) =
          .ok ⟨[] :: second :: others, parameters⟩ := by
        intro offset
        rw [readName, ih _ (by simp) hothers htail]
        rfl
      have hread := readName_map_nameGlyph hfirst hrest offset
      rw [List.append_nil] at hread
      rw [Spelled.glyphs, List.map_cons, List.map_cons, join, List.append_assoc]
      exact hread

/-- Among letters, digits and escapes no two glyphs stand for one character. -/
theorem parameterGlyph_of_inParameters {g : Glyph} {c : Char} {offset : Nat}
    (hplain : ∀ c, g = .plain c → c.isAlphanum = true) (h : g.inParameters offset = .ok c) :
    parameterGlyph c = g := by
  cases g with
  | plain d =>
    have hd := hplain d rfl
    rw [Glyph.inParameters, if_pos (toNat_lt_of_isAlphanum hd)] at h
    obtain rfl := Except.ok.inj h
    rw [parameterGlyph_of_isNameChar (.inr hd), nameGlyph_of_isAlphanum hd]
  | unicode | boundary | dangling => cases h
  | underscore | semicolon | bracket | separator =>
    obtain rfl := Except.ok.inj h
    rfl

theorem map_parameterGlyph_of_readParameters {gs : List Glyph} {cs : List Char} {offset : Nat}
    (hplain : ∀ c, .plain c ∈ gs → c.isAlphanum = true)
    (h : readParameters offset gs = .ok cs) : cs.map parameterGlyph = gs := by
  induction gs generalizing offset cs with
  | nil =>
    obtain rfl := Except.ok.inj h
    rfl
  | cons g r ih =>
    obtain ⟨c, hc, h⟩ := Checked.bind_eq_ok_iff.mp h
    obtain ⟨others, hothers, h⟩ := Checked.bind_eq_ok_iff.mp h
    obtain rfl := Checked.pure_eq_ok_iff.mp h
    rw [List.map_cons, ih (fun c hc => hplain c (List.mem_cons_of_mem _ hc)) hothers,
      parameterGlyph_of_inParameters (fun c hc => hplain c (hc ▸ List.mem_cons_self)) hc]

/-- A name that is read is spelled by the glyphs it was read from, with no slash in a segment. -/
theorem glyphs_of_readName {gs : List Glyph} {s : Spelled} {offset : Nat}
    (hplain : ∀ c, .plain c ∈ gs → c.isAlphanum = true) (h : readName offset gs = .ok s) :
    s.segments ≠ [] ∧ s.glyphs = gs ∧ ∀ segment ∈ s.segments, '/' ∉ segment := by
  fun_induction readName offset gs generalizing s with
  | case1 =>
    obtain rfl := Except.ok.inj h
    exact ⟨by simp, rfl, by simp⟩
  | case2 offset r =>
    obtain ⟨cs, hcs, rfl⟩ := Checked.map_eq_ok_iff.mp h
    have hr := map_parameterGlyph_of_readParameters
      (fun c hc => hplain c (List.mem_cons_of_mem _ hc)) hcs
    refine ⟨by simp, ?_, by simp⟩
    rw [← hr]
    rfl
  | case3 offset r ih =>
    obtain ⟨t, ht, rfl⟩ := Checked.map_eq_ok_iff.mp h
    obtain ⟨hne, hr, hslash⟩ := ih (fun c hc => hplain c (List.mem_cons_of_mem _ hc)) ht
    refine ⟨by simp [Spelled.opened], by rw [Spelled.glyphs_opened hne, hr], ?_⟩
    exact List.forall_mem_cons.mpr ⟨by simp, hslash⟩
  | case4 offset c r hc ih =>
    obtain ⟨t, ht, rfl⟩ := Checked.map_eq_ok_iff.mp h
    obtain ⟨hne, hr, hslash⟩ := ih (fun c hc => hplain c (List.mem_cons_of_mem _ hc)) ht
    have halnum := hplain c List.mem_cons_self
    obtain ⟨hne', hslash'⟩ := Spelled.slash_not_mem_push hne hslash (ne_of_isAlphanum halnum rfl)
    exact ⟨hne', by rw [Spelled.glyphs_push hne, hr, nameGlyph_of_isAlphanum halnum], hslash'⟩
  | case6 offset r ih =>
    obtain ⟨t, ht, rfl⟩ := Checked.map_eq_ok_iff.mp h
    obtain ⟨hne, hr, hslash⟩ := ih (fun c hc => hplain c (List.mem_cons_of_mem _ hc)) ht
    obtain ⟨hne', hslash'⟩ := Spelled.slash_not_mem_push (c := '_') hne hslash (by decide)
    exact ⟨hne', by rw [Spelled.glyphs_push hne, hr]; rfl, hslash'⟩
  | _ => cases h

end NativeBridge.Symbol
