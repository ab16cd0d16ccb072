import NativeBridge.Proofs.Checked
import NativeBridge.Proofs.Symbol.Glyphs
import NativeBridge.Proofs.Text.Pieces
import NativeBridge.Symbol.Printer
import NativeBridge.Symbol.Reader

/-! # Names and their glyphs

A method is spelled as segments and parameters, and these as glyphs, one for each character. Glyphs
that are letters, digits and escapes are read as the one spelling that they stand for.
-/

namespace NativeBridge.Symbol

open Text

def IsNameChar (c : Char) : Prop :=
  c = '_' ∨ c.isAlphanum = true

def IsParameterChar (c : Char) : Prop :=
  c ∈ ['/', ';', '['] ∨ IsNameChar c

def nameGlyph (c : Char) : Glyph :=
  if c = '_' then .underscore else .plain c

def parameterGlyph (c : Char) : Glyph :=
  match c with
  | '/' => .separator
  | ';' => .semicolon
  | '[' => .bracket
  | c => nameGlyph c

theorem ne_of_isAlphanum {c d : Char} (h : c.isAlphanum = true) (hd : d.isAlphanum = false) :
    c ≠ d := by
  rintro rfl
  rw [h] at hd
  cases hd

theorem toNat_lt_of_isAlphanum {c : Char} (h : c.isAlphanum = true) : c.toNat < 128 := by
  simp only [Char.isAlphanum, Char.isAlpha, Char.isUpper, Char.isLower, Char.isDigit,
    Bool.or_eq_true, Bool.and_eq_true, decide_eq_true_eq, UInt32.le_iff_toNat_le] at h
  change c.val.toNat < 128
  rcases h with (⟨-, h⟩ | ⟨-, h⟩) | ⟨-, h⟩ <;> exact Nat.lt_of_le_of_lt h (by decide)

theorem IsNameChar.toNat_lt {c : Char} (h : IsNameChar c) : c.toNat < 128 := by
  rcases h with rfl | h
  · decide
  · exact toNat_lt_of_isAlphanum h

theorem IsParameterChar.toNat_lt {c : Char} (h : IsParameterChar c) : c.toNat < 128 := by
  rcases h with h | h
  · simp only [List.mem_cons, List.not_mem_nil, or_false] at h
    rcases h with rfl | rfl | rfl <;> decide
  · exact h.toNat_lt

theorem nameGlyph_of_isAlphanum {c : Char} (h : c.isAlphanum = true) : nameGlyph c = .plain c :=
  if_neg (ne_of_isAlphanum h rfl)

theorem parameterGlyph_of_isNameChar {c : Char} (h : IsNameChar c) :
    parameterGlyph c = nameGlyph c := by
  unfold parameterGlyph
  split
  · revert h; simp [IsNameChar]
  · revert h; simp [IsNameChar]
  · revert h; simp [IsNameChar]
  · rfl

theorem nameGlyph?_eq_some_iff (c : Char) (g : Glyph) :
    nameGlyph? c = some g ↔ IsNameChar c ∧ nameGlyph c = g := by
  unfold nameGlyph? nameGlyph IsNameChar
  by_cases hc : c = '_'
  · simp [hc]
  · by_cases ha : c.isAlphanum = true <;> simp [hc, ha]

theorem parameterGlyph?_eq_some_iff (c : Char) (g : Glyph) :
    parameterGlyph? c = some g ↔ IsParameterChar c ∧ parameterGlyph c = g := by
  unfold parameterGlyph? parameterGlyph IsParameterChar
  split
  · simp
  · simp
  · simp
  · next h₁ h₂ h₃ =>
    have hnot : c ∉ ['/', ';', '['] := by
      simpa using ⟨h₁, h₂, h₃⟩
    rw [nameGlyph?_eq_some_iff]
    simp only [hnot, false_or]

theorem spell_eq_ok_iff {glyph? : Char → Option Glyph} {glyph : Char → Glyph} {P : Char → Prop}
    (hglyph : ∀ c g, glyph? c = some g ↔ P c ∧ glyph c = g) {cs : List Char} {gs : List Glyph} :
    spell glyph? cs = .ok gs ↔ (∀ c ∈ cs, P c) ∧ cs.map glyph = gs := by
  have hall : List.Forall₂ (fun c g => P c ∧ glyph c = g) cs gs ↔
      (∀ c ∈ cs, P c) ∧ cs.map glyph = gs := by
    rw [List.forall₂_and_left, ← List.forall₂_map_left_iff, List.forall₂_eq_eq_eq]
  rw [spell, Checked.mapM_eq_ok_iff, ← hall]
  constructor
  · refine fun h => h.imp ?_
    intro c g hg
    rw [← hglyph]
    split at hg
    · next hsome => rw [hsome, Except.ok.inj hg]
    · cases hg
  · refine fun h => h.imp ?_
    intro c g hg
    rw [(hglyph c g).mpr hg]

/-- What a segment is made of that has a spelling. -/
structure IsSegment (segment : List Char) : Prop where
  ne_nil : segment ≠ []
  head : ∀ c ∈ segment.head?, c.isDigit = false
  chars : ∀ c ∈ segment, IsNameChar c

theorem spellSegment_eq_ok_iff {segment : List Char} {gs : List Glyph} :
    spellSegment segment = .ok gs ↔ IsSegment segment ∧ segment.map nameGlyph = gs := by
  unfold spellSegment
  split
  · simp only [reduceCtorEq, false_iff]
    exact fun h => h.1.ne_nil rfl
  · next first others =>
    split
    · next hdigit =>
      simp only [reduceCtorEq, false_iff]
      exact fun h => absurd hdigit (by simp [h.1.head first rfl])
    · next hdigit =>
      rw [spell_eq_ok_iff nameGlyph?_eq_some_iff]
      constructor
      · rintro ⟨hchars, hgs⟩
        refine ⟨⟨by simp, ?_, hchars⟩, hgs⟩
        intro c hc
        obtain rfl := Option.some.inj hc
        simpa using hdigit
      · rintro ⟨hsegment, hgs⟩
        exact ⟨hsegment.chars, hgs⟩

theorem unwrap?_eq_some_iff {cs inner : List Char} :
    unwrap? cs = some inner ↔ cs = '(' :: inner ++ [')'] := by
  unfold unwrap?
  split
  · next r =>
    rw [Option.ite_none_right_eq_some, Option.some.injEq, List.cons_append, List.cons.injEq]
    constructor
    · rintro ⟨hlast, rfl⟩
      exact ⟨rfl, (List.dropLast_append_getLast? _ hlast).symm⟩
    · rintro ⟨-, rfl⟩
      simp
  · next hother =>
    simp only [reduceCtorEq, false_iff]
    rintro rfl
    exact hother _ rfl

/-- A method's segments and parameters, unless its parameters stand in no parentheses. -/
def spelled? (id : MethodId) : Option Spelled :=
  let segments := pieces (· == '/') id.className.toList ++ [id.methodName.toList]
  match id.parameters with
  | none => some ⟨segments, none⟩
  | some parameters => (unwrap? parameters.toList).map fun inner => ⟨segments, some inner⟩

namespace Spelled

def parameterGlyphs (s : Spelled) : List Glyph :=
  match s.parameters with
  | none => []
  | some cs => .boundary :: cs.map parameterGlyph

def glyphs (s : Spelled) : List Glyph :=
  join .separator (s.segments.map (·.map nameGlyph)) ++ s.parameterGlyphs

theorem cases_of_mem_glyphs {s : Spelled} {g : Glyph} (h : g ∈ s.glyphs) :
    g = .separator ∨ g = .boundary ∨ (∃ segment ∈ s.segments, ∃ c ∈ segment, nameGlyph c = g) ∨
      ∃ cs ∈ s.parameters, ∃ c ∈ cs, parameterGlyph c = g := by
  obtain ⟨segments, parameters⟩ := s
  rcases List.mem_append.mp h with h | h
  · rcases mem_join h with rfl | ⟨part, hpart, hg⟩
    · exact .inl rfl
    · obtain ⟨segment, hsegment, rfl⟩ := List.mem_map.mp hpart
      exact .inr (.inr (.inl ⟨segment, hsegment, List.mem_map.mp hg⟩))
  · cases parameters with
    | none => cases h
    | some cs =>
      rcases List.mem_cons.mp h with rfl | h
      · exact .inr (.inl rfl)
      · exact .inr (.inr (.inr ⟨cs, rfl, List.mem_map.mp h⟩))

theorem nameGlyph_mem_glyphs {s : Spelled} {segment : List Char} {c : Char}
    (hsegment : segment ∈ s.segments) (hc : c ∈ segment) : nameGlyph c ∈ s.glyphs :=
  List.mem_append_left _ (mem_join_of_mem (List.mem_map_of_mem hsegment) (List.mem_map_of_mem hc))

theorem parameterGlyph_mem_glyphs {s : Spelled} {cs : List Char} {c : Char}
    (hcs : cs ∈ s.parameters) (hc : c ∈ cs) : parameterGlyph c ∈ s.glyphs := by
  refine List.mem_append_right _ ?_
  unfold parameterGlyphs
  rw [Option.mem_def.mp hcs]
  exact List.mem_cons_of_mem _ (List.mem_map_of_mem hc)

/-- Whether every character has a glyph and no segment is empty or starts with a digit. -/
structure Spellable (s : Spelled) : Prop where
  segments : ∀ segment ∈ s.segments, IsSegment segment
  parameters : ∀ cs ∈ s.parameters, ∀ c ∈ cs, IsParameterChar c

end Spelled

theorem segments_of_spelled? {id : MethodId} {s : Spelled} (h : spelled? id = some s) :
    s.segments = pieces (· == '/') id.className.toList ++ [id.methodName.toList] := by
  unfold spelled? at h
  dsimp only at h
  split at h
  · rw [← Option.some.inj h]
  · obtain ⟨inner, -, rfl⟩ := Option.map_eq_some_iff.mp h
    rfl

theorem spellSegments_eq_ok_iff {segments : List (List Char)} {gss : List (List Glyph)} :
    segments.mapM spellSegment = .ok gss ↔
      (∀ segment ∈ segments, IsSegment segment) ∧ segments.map (·.map nameGlyph) = gss := by
  simp only [Checked.mapM_eq_ok_iff, spellSegment_eq_ok_iff]
  rw [List.forall₂_and_left, ← List.forall₂_map_left_iff, List.forall₂_eq_eq_eq]

theorem spellParameters_eq_ok_iff {id : MethodId} {gs : List Glyph} :
    spellParameters id = .ok gs ↔ ∃ s, spelled? id = some s ∧
      (∀ cs ∈ s.parameters, ∀ c ∈ cs, IsParameterChar c) ∧ s.parameterGlyphs = gs := by
  unfold spellParameters spelled?
  cases id.parameters with
  | none => simp [Spelled.parameterGlyphs]
  | some parameters =>
    dsimp only
    cases unwrap? parameters.toList with
    | none => simp
    | some inner =>
      simp only [Checked.mapError_eq_ok_iff, Checked.map_eq_ok_iff,
        spell_eq_ok_iff parameterGlyph?_eq_some_iff]
      simp [Spelled.parameterGlyphs]

theorem glyphs_eq_ok_iff {id : MethodId} {gs : List Glyph} : glyphs id = .ok gs ↔
    ∃ s, spelled? id = some s ∧ s.Spellable ∧ s.glyphs = gs := by
  simp only [glyphs, Checked.bind_eq_ok_iff, Checked.pure_eq_ok_iff, Checked.mapError_eq_ok_iff,
    spellSegments_eq_ok_iff, spellSegment_eq_ok_iff, spellParameters_eq_ok_iff]
  constructor
  · rintro ⟨_, ⟨hsegments, rfl⟩, _, ⟨hname, rfl⟩, _, ⟨s, hs, hparameters, rfl⟩, rfl⟩
    have hall := segments_of_spelled? hs
    refine ⟨s, hs, ⟨?_, hparameters⟩, ?_⟩
    · rw [hall]
      intro segment hsegment
      rcases List.mem_append.mp hsegment with hsegment | hsegment
      · exact hsegments segment hsegment
      · rwa [List.mem_singleton.mp hsegment]
    · rw [Spelled.glyphs, hall, List.map_append, List.map_singleton]
  · rintro ⟨s, hs, ⟨hsegments, hparameters⟩, rfl⟩
    have hall := segments_of_spelled? hs
    rw [hall] at hsegments
    refine ⟨_, ⟨fun segment h => hsegments segment (List.mem_append_left _ h), rfl⟩, _,
      ⟨hsegments _ (List.mem_append_right _ (List.mem_singleton.mpr rfl)), rfl⟩, _,
      ⟨s, hs, hparameters, rfl⟩, ?_⟩
    rw [Spelled.glyphs, hall, List.map_append, List.map_singleton]

theorem mangle_eq_ok_iff {id : MethodId} {symbol : String} : mangle id = .ok symbol ↔
    ∃ s, spelled? id = some s ∧ s.Spellable ∧ byteLength (Glyph.toChars s.glyphs) < maxLength ∧
      String.ofList (namePrefix.toList ++ Glyph.toChars s.glyphs) = symbol := by
  rw [mangle, Checked.bind_eq_ok_iff]
  simp only [glyphs_eq_ok_iff]
  constructor
  · rintro ⟨_, ⟨s, hs, hspellable, rfl⟩, h⟩
    split at h
    · cases h
    · next hlength =>
      exact ⟨s, hs, hspellable, Nat.lt_of_not_le hlength, Except.ok.inj h⟩
  · rintro ⟨s, hs, hspellable, hlength, rfl⟩
    exact ⟨_, ⟨s, hs, hspellable, rfl⟩, if_neg (Nat.not_le_of_lt hlength)⟩

end NativeBridge.Symbol
