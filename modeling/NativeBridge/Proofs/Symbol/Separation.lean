import NativeBridge.Proofs.Symbol.Spelling

/-! # Spellings whose glyphs are kept apart

The separator of two segments is kept apart unless the second starts with an underscore, and that
of a slash among the parameters when a letter or a digit above three follows.
-/

namespace NativeBridge.Symbol

open Text

namespace Glyph

/-- Whether a glyph is one of those that names and parameters are spelled with. -/
structure IsSpelling (g : Glyph) : Prop where
  not_dangling : g ≠ .dangling
  plain : ∀ c, g = .plain c → c.isAlphanum = true

theorem isSpelling_separator : separator.IsSpelling :=
  ⟨by simp, by simp⟩

theorem isSpelling_boundary : boundary.IsSpelling :=
  ⟨by simp, by simp⟩

theorem IsSpelling.of_mem_chars {g : Glyph} (h : g.IsSpelling) {c : Char} (hc : c ∈ g.chars) :
    c = '_' ∨ c.isAlphanum = true := by
  cases g with
  | plain d =>
    obtain rfl := List.mem_singleton.mp hc
    exact .inr (h.plain c rfl)
  | dangling => exact absurd rfl h.not_dangling
  | _ =>
    simp only [chars, List.mem_cons, List.not_mem_nil, or_false] at hc
    rcases hc with rfl | rfl <;> decide

end Glyph

theorem isSpelling_nameGlyph {c : Char} (h : IsNameChar c) : (nameGlyph c).IsSpelling := by
  rcases h with rfl | h
  · exact ⟨by simp [nameGlyph], by simp [nameGlyph]⟩
  · rw [nameGlyph_of_isAlphanum h]
    refine ⟨by simp, ?_⟩
    rintro d hd
    rwa [← Glyph.plain.inj hd]

theorem isSpelling_parameterGlyph {c : Char} (h : IsParameterChar c) :
    (parameterGlyph c).IsSpelling := by
  rcases h with h | h
  · simp only [List.mem_cons, List.not_mem_nil, or_false] at h
    rcases h with rfl | rfl | rfl <;> exact ⟨by simp [parameterGlyph], by simp [parameterGlyph]⟩
  · rw [parameterGlyph_of_isNameChar h]
    exact isSpelling_nameGlyph h

theorem parameterGlyph_eq_separator_iff {c : Char} : parameterGlyph c = .separator ↔ c = '/' := by
  unfold parameterGlyph
  split
  · simp
  · simp
  · simp
  · next hc _ _ =>
    refine iff_of_false ?_ hc
    unfold nameGlyph
    split <;> simp

theorem parameterGlyph_eq_plain_iff {c d : Char} (h : IsParameterChar c) :
    parameterGlyph c = .plain d ↔ c.isAlphanum = true ∧ c = d := by
  rcases h with h | rfl | h
  · simp only [List.mem_cons, List.not_mem_nil, or_false] at h
    rcases h with rfl | rfl | rfl <;> simp [parameterGlyph]
  · simp [parameterGlyph, nameGlyph]
  · simp [parameterGlyph_of_isNameChar (.inr h), nameGlyph_of_isAlphanum h, h]

theorem escaped?_eq_none_iff {c : Char} (h : c.isAlphanum = true) :
    Glyph.escaped? c = none ↔ c ∉ ['0', '1', '2', '3'] := by
  have hunder := ne_of_isAlphanum h (d := '_') rfl
  unfold Glyph.escaped?
  split <;> simp_all

def StartsPlain (cs : List Char) : Prop :=
  ∃ c ∈ cs.head?, c.isAlphanum = true ∧ c ∉ ['0', '1', '2', '3']

theorem startsPlain_iff {cs : List Char} (h : ∀ c ∈ cs, IsParameterChar c) :
    StartsPlain cs ↔
      ∃ c after, cs.map parameterGlyph = .plain c :: after ∧ Glyph.escaped? c = none := by
  cases cs with
  | nil => simp [StartsPlain]
  | cons c cs =>
    rw [StartsPlain, List.map_cons, List.head?_cons]
    constructor
    · rintro ⟨d, hd, halnum, hdigit⟩
      obtain rfl := Option.some.inj hd
      refine ⟨c, cs.map parameterGlyph, ?_, (escaped?_eq_none_iff halnum).mpr hdigit⟩
      rw [(parameterGlyph_eq_plain_iff (h c List.mem_cons_self)).mpr ⟨halnum, rfl⟩]
    · rintro ⟨d, after, hcons, he⟩
      obtain ⟨halnum, rfl⟩ :=
        (parameterGlyph_eq_plain_iff (h c List.mem_cons_self)).mp (List.cons.inj hcons).1
      exact ⟨c, rfl, halnum, (escaped?_eq_none_iff halnum).mp he⟩

theorem startsPlain_append_parenthesis_iff (cs : List Char) :
    StartsPlain (cs ++ [')']) ↔ StartsPlain cs := by
  cases cs with
  | nil => simp [StartsPlain, Char.isAlphanum, Char.isAlpha]
  | cons c cs => rfl

theorem separated_map_parameterGlyph_iff {cs : List Char} (h : ∀ c ∈ cs, IsParameterChar c) :
    Separated (cs.map parameterGlyph) ↔ AfterEach '/' StartsPlain cs := by
  induction cs with
  | nil => exact iff_of_true trivial (afterEach_nil _)
  | cons c cs ih =>
    obtain ⟨-, hcs⟩ := List.forall_mem_cons.mp h
    rw [List.map_cons, separated_cons_iff, parameterGlyph_eq_separator_iff, ← startsPlain_iff hcs,
      ih hcs, afterEach_cons_iff]

theorem separator_not_mem_map_nameGlyph (cs : List Char) :
    Glyph.separator ∉ cs.map nameGlyph := by
  rintro h
  obtain ⟨c, -, hc⟩ := List.mem_map.mp h
  revert hc
  unfold nameGlyph
  split <;> simp

theorem IsSegment.head_nameGlyph_iff {segment : List Char} (h : IsSegment segment)
    (r : List Glyph) : (∃ c after, segment.map nameGlyph ++ r = .plain c :: after ∧
      Glyph.escaped? c = none) ↔ segment.head? ≠ some '_' := by
  cases segment with
  | nil => exact absurd rfl h.ne_nil
  | cons c cs =>
    rw [List.map_cons, List.cons_append, List.head?_cons]
    rcases h.chars c List.mem_cons_self with rfl | halnum
    · simp [nameGlyph]
    · have hdigit : c ∉ ['0', '1', '2', '3'] := by
        have hc := h.head c rfl
        rintro hmem
        simp only [List.mem_cons, List.not_mem_nil, or_false] at hmem
        rcases hmem with rfl | rfl | rfl | rfl <;> cases hc
      rw [nameGlyph_of_isAlphanum halnum]
      refine iff_of_true ⟨c, _, rfl, (escaped?_eq_none_iff halnum).mpr hdigit⟩ ?_
      simpa using ne_of_isAlphanum halnum rfl

theorem separated_join_iff {segments : List (List Char)} {r : List Glyph}
    (h : ∀ segment ∈ segments, IsSegment segment) :
    Separated (join .separator (segments.map (·.map nameGlyph)) ++ r) ↔
      (∀ segment ∈ segments.tail, segment.head? ≠ some '_') ∧ Separated r := by
  induction segments with
  | nil => simp [join]
  | cons first others ih =>
    obtain ⟨-, hothers⟩ := List.forall_mem_cons.mp h
    cases others with
    | nil =>
      rw [List.map_singleton, join, separated_append_iff (separator_not_mem_map_nameGlyph first)]
      simp
    | cons second others =>
      obtain ⟨hsecond, -⟩ := List.forall_mem_cons.mp hothers
      obtain ⟨rest, hrest⟩ := join_cons_append .separator (second.map nameGlyph)
        (others.map (·.map nameGlyph)) r
      have ih := ih hothers
      rw [List.map_cons, hrest] at ih
      rw [List.map_cons, List.map_cons, join, List.append_assoc,
        separated_append_iff (separator_not_mem_map_nameGlyph first), List.cons_append, hrest,
        separated_cons_iff, ih, hsecond.head_nameGlyph_iff, List.tail_cons, List.tail_cons,
        List.forall_mem_cons]
      simp only [true_implies, and_assoc]

namespace Spelled

theorem separated_parameterGlyphs_iff {s : Spelled} : Separated s.parameterGlyphs ↔
    ∀ cs ∈ s.parameters, Separated (cs.map parameterGlyph) := by
  unfold parameterGlyphs
  cases s.parameters with
  | none => simp [Separated]
  | some cs => simp [Separated]

namespace Spellable

theorem separated_glyphs_iff {s : Spelled} (h : s.Spellable) : Separated s.glyphs ↔
    (∀ segment ∈ s.segments.tail, segment.head? ≠ some '_') ∧
      ∀ cs ∈ s.parameters, Separated (cs.map parameterGlyph) := by
  rw [glyphs, separated_join_iff h.segments, separated_parameterGlyphs_iff]

theorem isSpelling_of_mem_glyphs {s : Spelled} (h : s.Spellable) {g : Glyph} (hg : g ∈ s.glyphs) :
    g.IsSpelling := by
  rcases cases_of_mem_glyphs hg with rfl | rfl | ⟨segment, hsegment, c, hc, rfl⟩ |
    ⟨cs, hcs, c, hc, rfl⟩
  · exact Glyph.isSpelling_separator
  · exact Glyph.isSpelling_boundary
  · exact isSpelling_nameGlyph ((h.segments segment hsegment).chars c hc)
  · exact isSpelling_parameterGlyph (h.parameters cs hcs c hc)

end Spellable

end Spelled

end NativeBridge.Symbol
