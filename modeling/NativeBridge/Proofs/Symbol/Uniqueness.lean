import NativeBridge.Proofs.Symbol.RoundTrip

/-! # One symbol name for each method

A symbol name of letters, digits and underscores is the one spelling of the method that it is read
as. It is written again for this method, unless a segment of the method has no spelling that could
be read back: only the first segment can be empty, and any segment may start with a digit.
-/

namespace NativeBridge.Symbol

open Checked Text

theorem dangling_ne_nameGlyph (c : Char) : Glyph.dangling ≠ nameGlyph c := by
  unfold nameGlyph
  split <;> simp

theorem dangling_ne_parameterGlyph (c : Char) : Glyph.dangling ≠ parameterGlyph c := by
  unfold parameterGlyph
  split
  · simp
  · simp
  · simp
  · exact dangling_ne_nameGlyph c

theorem isNameChar_of_nameGlyph {c : Char}
    (h : ∀ d, nameGlyph c = .plain d → d.isAlphanum = true) : IsNameChar c := by
  by_cases hc : c = '_'
  · exact .inl hc
  · exact .inr (h c (if_neg hc))

theorem isParameterChar_of_parameterGlyph {c : Char}
    (h : ∀ d, parameterGlyph c = .plain d → d.isAlphanum = true) : IsParameterChar c := by
  unfold parameterGlyph at h
  split at h
  · exact .inl (by simp)
  · exact .inl (by simp)
  · exact .inl (by simp)
  · exact .inr (isNameChar_of_nameGlyph h)

/-- What is kept apart from a separator begins with a character of the next segment. -/
theorem ne_nil_of_separated {segments : List (List Char)} {r : List Glyph}
    (hr : ∀ c after, r ≠ .plain c :: after)
    (h : Separated (join .separator (segments.map (·.map nameGlyph)) ++ r)) :
    ∀ segment ∈ segments.tail, segment ≠ [] := by
  induction segments with
  | nil => exact fun _ hmem => absurd hmem List.not_mem_nil
  | cons first others ih =>
    cases others with
    | nil => exact fun _ hmem => absurd hmem List.not_mem_nil
    | cons second others =>
      rw [List.map_cons, List.map_cons, join, List.append_assoc,
        separated_append_iff (separator_not_mem_map_nameGlyph first), List.cons_append,
        separated_cons_iff] at h
      obtain ⟨hnext, hrest⟩ := h
      refine List.forall_mem_cons.mpr ⟨?_, ih hrest⟩
      rintro rfl
      obtain ⟨c, after, hplain, -⟩ := hnext rfl
      cases others with
      | nil => exact hr c after hplain
      | cons third others => cases hplain

theorem Spelled.dangling_not_mem_glyphs (s : Spelled) : .dangling ∉ s.glyphs := by
  intro h
  rcases cases_of_mem_glyphs h with h | h | ⟨_, _, c, _, h⟩ | ⟨_, _, c, _, h⟩
  · cases h
  · cases h
  · exact dangling_ne_nameGlyph c h.symm
  · exact dangling_ne_parameterGlyph c h.symm

/-- What is known of a spelling that letters, digits and underscores are read as. -/
structure ReadFrom (symbol : String) (s : Spelled) : Prop where
  symbol_eq : symbol = String.ofList (namePrefix.toList ++ Glyph.toChars s.glyphs)
  length : byteLength (Glyph.toChars s.glyphs) < maxLength
  plain : ∀ c, .plain c ∈ s.glyphs → c.isAlphanum = true
  separated : Separated s.glyphs

theorem exists_body_of_demangle {symbol : String} {id : MethodId} (h : demangle symbol = .ok id) :
    ∃ body, symbol = String.ofList (namePrefix.toList ++ body) ∧ byteLength body < maxLength ∧
      (readName 0 (Glyph.ofChars body) >>= Spelled.method) = .ok id := by
  rw [demangle] at h
  split at h
  · cases h
  · next body hbody =>
    split at h
    · cases h
    · next hlength =>
      exact ⟨body, body?_eq_some_iff.mp hbody, Nat.lt_of_not_le hlength, mapError_eq_ok_iff.mp h⟩

theorem exists_readFrom {symbol : String} {id : MethodId}
    (hplain : ∀ c ∈ symbol.toList, IsNameChar c) (h : demangle symbol = .ok id) :
    ∃ s, spelled? id = some s ∧ ReadFrom symbol s := by
  obtain ⟨body, rfl, hlength, hread⟩ := exists_body_of_demangle h
  obtain ⟨s, hs, hmethod⟩ := bind_eq_ok_iff.mp hread
  have halnum : ∀ c, .plain c ∈ Glyph.ofChars body → c.isAlphanum = true := by
    intro c hc
    obtain ⟨hmem, hunder⟩ := Glyph.mem_toChars_of_plain_mem_ofChars hc
    refine (hplain c ?_).resolve_left hunder
    rw [String.toList_ofList]
    exact List.mem_append_right _ hmem
  obtain ⟨-, hglyphs, hslash⟩ := glyphs_of_readName halnum hs
  have hbody : Glyph.toChars s.glyphs = body := by rw [hglyphs, Glyph.toChars_ofChars]
  refine ⟨s, spelled?_of_method hslash hmethod, by rw [hbody], by rwa [hbody], by rwa [hglyphs], ?_⟩
  rw [← Glyph.ofChars_toChars_iff, hbody, hglyphs]
  · intro c hc
    rw [hglyphs] at hc
    exact (Glyph.mem_toChars_of_plain_mem_ofChars hc).2
  · exact s.dangling_not_mem_glyphs

def StartsWithDigit (segment : List Char) : Prop :=
  ∃ c ∈ segment.head?, c.isDigit = true

namespace ReadFrom

variable {symbol : String} {s : Spelled}

theorem chars_of_mem (h : ReadFrom symbol s) {segment : List Char}
    (hsegment : segment ∈ s.segments) :
    ∀ c ∈ segment, IsNameChar c := by
  intro c hc
  refine isNameChar_of_nameGlyph fun d hd => h.plain d ?_
  rw [← hd]
  exact Spelled.nameGlyph_mem_glyphs hsegment hc

theorem parameterChars_of_mem (h : ReadFrom symbol s) {cs : List Char} (hcs : cs ∈ s.parameters) :
    ∀ c ∈ cs, IsParameterChar c := by
  intro c hc
  refine isParameterChar_of_parameterGlyph fun d hd => h.plain d ?_
  rw [← hd]
  exact Spelled.parameterGlyph_mem_glyphs hcs hc

/-- The segments that a separator opens are not empty. -/
theorem ne_nil_of_mem_tail (h : ReadFrom symbol s) : ∀ segment ∈ s.segments.tail, segment ≠ [] := by
  refine ne_nil_of_separated (r := s.parameterGlyphs) ?_ h.separated
  intro c after
  unfold Spelled.parameterGlyphs
  split <;> simp

theorem spellable_iff (h : ReadFrom symbol s) : s.Spellable ↔
    ¬(s.segments.head? = some [] ∨ ∃ segment ∈ s.segments, StartsWithDigit segment) := by
  constructor
  · rintro hs (hempty | ⟨segment, hsegment, c, hc, hdigit⟩)
    · exact (hs.segments [] (List.mem_of_mem_head? hempty)).ne_nil rfl
    · rw [(hs.segments segment hsegment).head c hc] at hdigit
      cases hdigit
  · intro hnot
    obtain ⟨hfirst, hdigit⟩ := not_or.mp hnot
    refine ⟨fun segment hsegment => ⟨?_, fun c hc => ?_, h.chars_of_mem hsegment⟩,
      fun cs hcs => h.parameterChars_of_mem hcs⟩
    · obtain ⟨segments, parameters⟩ := s
      cases segments with
      | nil => cases hsegment
      | cons first others =>
        rcases List.mem_cons.mp hsegment with rfl | hsegment
        · rintro rfl
          exact hfirst rfl
        · exact h.ne_nil_of_mem_tail segment hsegment
    · exact Bool.eq_false_iff.mpr fun hc' => hdigit ⟨segment, hsegment, c, hc, hc'⟩

theorem mangle_eq_ok (h : ReadFrom symbol s) {id : MethodId} (hs : spelled? id = some s)
    (hspellable : s.Spellable) : mangle id = .ok symbol :=
  mangle_eq_ok_iff.mpr ⟨s, hs, hspellable, h.length, h.symbol_eq.symm⟩

end ReadFrom

def IsMalformed (fault : Fault) : Prop :=
  ∃ subject defect, fault = .malformedSymbol subject defect

theorem isMalformed_malformedSymbol (subject : String) (defect : SymbolDefect) :
    IsMalformed (.malformedSymbol subject defect) :=
  ⟨subject, defect, rfl⟩

theorem spellParameters_refusedOnly (id : MethodId) :
    RefusedOnly IsMalformed (spellParameters id) := by
  unfold spellParameters
  split
  · exact .ok []
  · split
    · exact .error (isMalformed_malformedSymbol _ _)
    · exact .mapError (isMalformed_malformedSymbol _) _

theorem glyphs_refusedOnly (id : MethodId) : RefusedOnly IsMalformed (glyphs id) := by
  unfold glyphs
  refine (RefusedOnly.mapError (isMalformed_malformedSymbol _) _).bind fun segments => ?_
  refine (RefusedOnly.mapError (isMalformed_malformedSymbol _) _).bind fun name => ?_
  exact (spellParameters_refusedOnly id).bind fun parameters => .ok _

theorem mangle_malformed_of_not_spellable {id : MethodId}
    (h : ∀ s, spelled? id = some s → ¬s.Spellable) :
    ∃ fault, mangle id = .error fault ∧ IsMalformed fault := by
  cases hglyphs : glyphs id with
  | error fault =>
    refine ⟨fault, ?_, glyphs_refusedOnly id fault hglyphs⟩
    rw [mangle, hglyphs]
    rfl
  | ok gs =>
    obtain ⟨s, hs, hspellable, -⟩ := glyphs_eq_ok_iff.mp hglyphs
    exact absurd hspellable (h s hs)

theorem mangle_eq_error_of_not_spellable {id : MethodId} {s : Spelled} (hs : spelled? id = some s)
    (h : ¬s.Spellable) : ∃ fault, mangle id = .error fault ∧ IsMalformed fault := by
  refine mangle_malformed_of_not_spellable fun s' hs' => ?_
  rwa [← Option.some.inj (hs.symm.trans hs')]

/-- The method that a symbol name of letters, digits and underscores is read as is spelled by this
name again, or it has no name because its first segment is empty or a segment starts with a digit.
No other such symbol name is read as this method. -/
theorem mangle_demangle {symbol : String} {id : MethodId}
    (hplain : ∀ c ∈ symbol.toList, IsNameChar c) (h : demangle symbol = .ok id) :
    let classSegments := pieces (· == '/') id.className.toList
    let refused := ∃ subject defect, mangle id = .error (.malformedSymbol subject defect)
    (mangle id = .ok symbol ∨ refused) ∧
    (refused ↔ classSegments.head? = some [] ∨
      ∃ segment ∈ classSegments ++ [id.methodName.toList], StartsWithDigit segment) ∧
    ∀ symbol', (∀ c ∈ symbol'.toList, IsNameChar c) → demangle symbol' = .ok id →
      symbol' = symbol := by
  intro classSegments refused
  obtain ⟨s, hs, hread⟩ := exists_readFrom hplain h
  have hsegments : s.segments = classSegments ++ [id.methodName.toList] := segments_of_spelled? hs
  have hfirst : s.segments.head? = classSegments.head? := by
    rw [hsegments, List.head?_append_of_ne_nil _ (pieces_ne_nil _ _)]
  have hrefused : refused ↔ ¬s.Spellable := by
    constructor
    · rintro ⟨subject, defect, herror⟩ hspellable
      rw [hread.mangle_eq_ok hs hspellable] at herror
      cases herror
    · intro hnot
      obtain ⟨_, herror, subject, defect, rfl⟩ := mangle_eq_error_of_not_spellable hs hnot
      exact ⟨subject, defect, herror⟩
  refine ⟨?_, ?_, fun symbol' hplain' h' => ?_⟩
  · by_cases hspellable : s.Spellable
    · exact .inl (hread.mangle_eq_ok hs hspellable)
    · exact .inr (hrefused.mpr hspellable)
  · rw [hrefused, hread.spellable_iff, not_not, hfirst, hsegments]
  · -- both symbol names have the glyphs of the one spelling of the method
    obtain ⟨s', hs', hread'⟩ := exists_readFrom hplain' h'
    obtain rfl := Option.some.inj (hs.symm.trans hs')
    rw [hread.symbol_eq, hread'.symbol_eq]

theorem mangle_demangle_digit :
    (∀ c ∈ "Java_org_x_1y_4z_run__Lx_2_3I".toList, IsNameChar c) ∧
      demangle "Java_org_x_1y_4z_run__Lx_2_3I" = .ok ⟨"org/x_y/4z", "run", some "(Lx;[I)"⟩ ∧
      ∃ subject defect, mangle ⟨"org/x_y/4z", "run", some "(Lx;[I)"⟩ =
        .error (.malformedSymbol subject defect) := by
  have hplain : ∀ c ∈ "Java_org_x_1y_4z_run__Lx_2_3I".toList, IsNameChar c := by
    simp [IsNameChar]
  have h : demangle "Java_org_x_1y_4z_run__Lx_2_3I" =
      .ok ⟨"org/x_y/4z", "run", some "(Lx;[I)"⟩ := by
    decide +kernel
  obtain ⟨-, hrefused, -⟩ := mangle_demangle hplain h
  exact ⟨hplain, h, hrefused.mpr (.inr ⟨['4', 'z'], by decide +kernel, '4', rfl, rfl⟩)⟩

end NativeBridge.Symbol
