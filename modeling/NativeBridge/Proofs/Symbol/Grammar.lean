import NativeBridge.Proofs.Checked
import NativeBridge.Proofs.Symbol.Glyphs
import NativeBridge.Symbol.Reader

/-! # The grammar of symbol names

A name is made of plain characters, of escaped underscores and of separators, and so are the
parameters after the boundary, with two escapes more. What the grammar derives is what is read.
-/

namespace NativeBridge.Symbol

open Checked Text

def IsAscii (cs : List Char) : Prop :=
  ∀ c ∈ cs, c.toNat < 128

theorem isAscii_nil : IsAscii [] :=
  List.forall_mem_nil _

theorem isAscii_cons_iff {c : Char} {cs : List Char} :
    IsAscii (c :: cs) ↔ c.toNat < 128 ∧ IsAscii cs :=
  List.forall_mem_cons

theorem isAscii_append_iff {first second : List Char} :
    IsAscii (first ++ second) ↔ IsAscii first ∧ IsAscii second :=
  List.forall_mem_append

/-- An underscore is no separator before these characters. -/
def escapes : List Char := ['0', '1', '2', '3', '_']

/-- Whether a text is a name with the segments between its separators. -/
inductive NameText : List Char → List (List Char) → Prop
  | nil : NameText [] [[]]
  | plain {c : Char} {cs first : List Char} {others : List (List Char)} (hc : c ≠ '_')
      (h : NameText cs (first :: others)) : NameText (c :: cs) ((c :: first) :: others)
  | underscore {cs first : List Char} {others : List (List Char)}
      (h : NameText cs (first :: others)) : NameText ('_' :: '1' :: cs) (('_' :: first) :: others)
  | separator {c : Char} {cs : List Char} {segments : List (List Char)} (hc : c ∉ escapes)
      (h : NameText (c :: cs) segments) : NameText ('_' :: c :: cs) ([] :: segments)

/-- Whether a text spells parameters. -/
inductive ParameterText : List Char → List Char → Prop
  | nil : ParameterText [] []
  | plain {c : Char} {cs out : List Char} (hc : c ≠ '_') (h : ParameterText cs out) :
      ParameterText (c :: cs) (c :: out)
  | underscore {cs out : List Char} (h : ParameterText cs out) :
      ParameterText ('_' :: '1' :: cs) ('_' :: out)
  | semicolon {cs out : List Char} (h : ParameterText cs out) :
      ParameterText ('_' :: '2' :: cs) (';' :: out)
  | bracket {cs out : List Char} (h : ParameterText cs out) :
      ParameterText ('_' :: '3' :: cs) ('[' :: out)
  | separator {c : Char} {cs out : List Char} (hc : c ∉ escapes) (h : ParameterText (c :: cs) out) :
      ParameterText ('_' :: c :: cs) ('/' :: out)

/-- Whether a text is a name, or a name, two underscores and parameters. -/
inductive BodyText : List Char → Spelled → Prop
  | name {cs : List Char} {segments : List (List Char)} (h : NameText cs segments) :
      BodyText cs ⟨segments, none⟩
  | overloaded {cs cs' out : List Char} {segments : List (List Char)} (h : NameText cs segments)
      (h' : ParameterText cs' out) : BodyText (cs ++ '_' :: '_' :: cs') ⟨segments, some out⟩

/-- Whether a text is the prefix and the body of a method that has a class. -/
inductive SymbolText : String → MethodId → Prop
  | intro {body name : List Char} {segments : List (List Char)} {parameters : Option (List Char)}
      (hascii : IsAscii body) (hclass : segments ≠ [])
      (h : BodyText body ⟨segments ++ [name], parameters⟩) :
      SymbolText (String.ofList (namePrefix.toList ++ body)) {
        className := String.ofList (join '/' segments)
        methodName := String.ofList name
        parameters := parameters.map fun cs => String.ofList ('(' :: cs ++ [')']) }

theorem Glyph.not_mem_escapes_iff {c : Char} : c ∉ escapes ↔ escaped? c = none := by
  constructor
  · intro h
    simp only [escapes, List.mem_cons, List.not_mem_nil, or_false, not_or] at h
    unfold escaped?
    split <;> simp_all
  · intro h hmem
    simp only [escapes, List.mem_cons, List.not_mem_nil, or_false] at hmem
    rcases hmem with rfl | rfl | rfl | rfl | rfl <;> cases h

theorem isAscii_escaped {e : Char} {g : Glyph} {cs : List Char} (hg : Glyph.escaped? e = some g)
    (h : IsAscii cs) : IsAscii ('_' :: e :: cs) := by
  refine isAscii_cons_iff.mpr ⟨by decide, isAscii_cons_iff.mpr ⟨?_, h⟩⟩
  unfold Glyph.escaped? at hg
  split at hg
  all_goals first | decide | cases hg

theorem readParameters_cons_eq_ok_iff {offset : Nat} {g : Glyph} {r : List Glyph}
    {out : List Char} : readParameters offset (g :: r) = .ok out ↔
      ∃ c others, g.inParameters offset = .ok c ∧
        readParameters (offset + g.chars.length) r = .ok others ∧ c :: others = out := by
  simp only [readParameters, bind_eq_ok_iff, pure_eq_ok_iff]
  constructor
  · rintro ⟨c, hc, others, hothers, rfl⟩
    exact ⟨c, others, hc, hothers, rfl⟩
  · rintro ⟨c, others, hc, hothers, rfl⟩
    exact ⟨c, hc, others, hothers, rfl⟩

theorem ParameterText.readParameters {cs out : List Char} (h : ParameterText cs out)
    (hascii : IsAscii cs) (offset : Nat) :
    readParameters offset (Glyph.ofChars cs) = .ok out := by
  induction h generalizing offset with
  | nil => rfl
  | plain hc _ ih =>
    obtain ⟨hlt, hascii⟩ := isAscii_cons_iff.mp hascii
    rw [Glyph.ofChars_plain hc]
    exact readParameters_cons_eq_ok_iff.mpr ⟨_, _, if_pos hlt, ih hascii _, rfl⟩
  | underscore _ ih | semicolon _ ih | bracket _ ih =>
    have hascii := (isAscii_cons_iff.mp (isAscii_cons_iff.mp hascii).2).2
    rw [Glyph.ofChars_escaped rfl]
    exact readParameters_cons_eq_ok_iff.mpr ⟨_, _, rfl, ih hascii _, rfl⟩
  | separator hc _ ih =>
    have hascii := (isAscii_cons_iff.mp hascii).2
    rw [Glyph.ofChars_separator (Glyph.not_mem_escapes_iff.mp hc)]
    exact readParameters_cons_eq_ok_iff.mpr ⟨_, _, rfl, ih hascii _, rfl⟩

/-- The grammar has every escape that has a meaning among parameters. -/
theorem ParameterText.escaped {e c : Char} {g : Glyph} {offset : Nat} {cs out : List Char}
    (hg : Glyph.escaped? e = some g) (hc : g.inParameters offset = .ok c)
    (h : ParameterText cs out) : ParameterText ('_' :: e :: cs) (c :: out) := by
  unfold Glyph.escaped? at hg
  split at hg
  · cases hg; cases hc
  · cases hg; cases hc; exact .underscore h
  · cases hg; cases hc; exact .semicolon h
  · cases hg; cases hc; exact .bracket h
  · cases hg; cases hc
  · cases hg

theorem parameterText_of_readParameters {cs out : List Char} {offset : Nat}
    (h : readParameters offset (Glyph.ofChars cs) = .ok out) :
    IsAscii cs ∧ ParameterText cs out := by
  fun_induction Glyph.ofChars cs generalizing offset out with
  | case1 =>
    obtain rfl := Except.ok.inj h
    exact ⟨isAscii_nil, .nil⟩
  | case2 => cases h
  | case3 e after g hg ih =>
    obtain ⟨c, others, hc, hothers, rfl⟩ := readParameters_cons_eq_ok_iff.mp h
    obtain ⟨hascii, hothers⟩ := ih hothers
    exact ⟨isAscii_escaped hg hascii, .escaped hg hc hothers⟩
  | case4 e after he ih =>
    obtain ⟨c, others, hc, hothers, rfl⟩ := readParameters_cons_eq_ok_iff.mp h
    obtain rfl := Except.ok.inj hc
    obtain ⟨hascii, hothers⟩ := ih hothers
    have he := Glyph.not_mem_escapes_iff.mpr he
    exact ⟨isAscii_cons_iff.mpr ⟨by decide, hascii⟩, .separator he hothers⟩
  | case5 c' r hc' ih =>
    obtain ⟨c, others, hc, hothers, rfl⟩ := readParameters_cons_eq_ok_iff.mp h
    rw [Glyph.inParameters] at hc
    split at hc
    · next hlt =>
      obtain rfl := Except.ok.inj hc
      obtain ⟨hascii, hothers⟩ := ih hothers
      exact ⟨isAscii_cons_iff.mpr ⟨hlt, hascii⟩, .plain hc' hothers⟩
    · cases hc

theorem NameText.ne_nil {cs : List Char} {segments : List (List Char)} (h : NameText cs segments) :
    segments ≠ [] := by
  cases h <;> simp

/-- A name is read in front of whatever is read as no name. -/
theorem NameText.readName {cs rest : List Char} {segments : List (List Char)}
    {parameters : Option (List Char)} (h : NameText cs segments) (hascii : IsAscii cs)
    (hrest : ∀ offset, readName offset (Glyph.ofChars rest) = .ok ⟨[[]], parameters⟩)
    (offset : Nat) :
    readName offset (Glyph.ofChars (cs ++ rest)) = .ok ⟨segments, parameters⟩ := by
  induction h generalizing offset with
  | nil => exact hrest offset
  | plain hc _ ih =>
    obtain ⟨hlt, hascii⟩ := isAscii_cons_iff.mp hascii
    rw [List.cons_append, Glyph.ofChars_plain hc, Symbol.readName, if_pos hlt, ih hascii]
    rfl
  | underscore _ ih =>
    have hascii := (isAscii_cons_iff.mp (isAscii_cons_iff.mp hascii).2).2
    rw [List.cons_append, List.cons_append, Glyph.ofChars_escaped rfl, Symbol.readName, ih hascii]
    rfl
  | separator hc _ ih =>
    have hread := ih (isAscii_cons_iff.mp hascii).2 (offset + 1)
    rw [List.cons_append] at hread
    rw [List.cons_append, List.cons_append,
      Glyph.ofChars_separator (Glyph.not_mem_escapes_iff.mp hc), Symbol.readName, hread]
    rfl

namespace BodyText

theorem readName {cs : List Char} {s : Spelled} (h : BodyText cs s)
    (hascii : IsAscii cs) (offset : Nat) : readName offset (Glyph.ofChars cs) = .ok s := by
  cases h with
  | name h =>
    rw [← List.append_nil cs]
    exact h.readName hascii (fun _ => rfl) offset
  | overloaded h h' =>
    obtain ⟨hname, hrest⟩ := isAscii_append_iff.mp hascii
    have hparameters := (isAscii_cons_iff.mp (isAscii_cons_iff.mp hrest).2).2
    refine h.readName hname (fun offset => ?_) offset
    rw [Glyph.ofChars_escaped rfl, Symbol.readName, h'.readParameters hparameters]
    rfl

theorem boundary {cs out : List Char} (h : ParameterText cs out) :
    BodyText ('_' :: '_' :: cs) ⟨[[]], some out⟩ :=
  .overloaded .nil h

theorem plain {c : Char} {cs : List Char} {s : Spelled} (hc : c ≠ '_') (h : BodyText cs s) :
    BodyText (c :: cs) (s.push c) := by
  cases h with
  | @name _ segments h =>
    cases segments with
    | nil => exact absurd rfl h.ne_nil
    | cons => exact .name (.plain hc h)
  | @overloaded _ _ _ segments h h' =>
    cases segments with
    | nil => exact absurd rfl h.ne_nil
    | cons => exact .overloaded (.plain hc h) h'

theorem underscore {cs : List Char} {s : Spelled} (h : BodyText cs s) :
    BodyText ('_' :: '1' :: cs) (s.push '_') := by
  cases h with
  | @name _ segments h =>
    cases segments with
    | nil => exact absurd rfl h.ne_nil
    | cons => exact .name (.underscore h)
  | @overloaded _ _ _ segments h h' =>
    cases segments with
    | nil => exact absurd rfl h.ne_nil
    | cons => exact .overloaded (.underscore h) h'

theorem separator {c : Char} {cs : List Char} {s : Spelled} (hc : c ∉ escapes)
    (h : BodyText (c :: cs) s) : BodyText ('_' :: c :: cs) s.opened := by
  generalize hbody : c :: cs = body at h
  cases h with
  | name h =>
    subst hbody
    exact .name (.separator hc h)
  | @overloaded name _ _ _ h h' =>
    -- the name is not empty, or the separator would stand before the boundary
    cases name with
    | nil =>
      obtain ⟨rfl, -⟩ := List.cons.inj hbody
      exact absurd (by decide) hc
    | cons d name =>
      obtain ⟨rfl, rfl⟩ := List.cons.inj hbody
      exact .overloaded (.separator hc h) h'

end BodyText

theorem bodyText_of_readName {cs : List Char} {s : Spelled} {offset : Nat}
    (h : readName offset (Glyph.ofChars cs) = .ok s) :
    IsAscii cs ∧ BodyText cs s := by
  fun_induction Glyph.ofChars cs generalizing offset s with
  | case1 =>
    obtain rfl := Except.ok.inj h
    exact ⟨isAscii_nil, .name .nil⟩
  | case2 => cases h
  | case3 e after g hg ih =>
    have hescape := hg
    unfold Glyph.escaped? at hescape
    split at hescape <;> cases hescape
    · cases h
    · obtain ⟨t, ht, rfl⟩ := map_eq_ok_iff.mp h
      obtain ⟨hascii, hbody⟩ := ih ht
      exact ⟨isAscii_escaped hg hascii, .underscore hbody⟩
    · cases h
    · cases h
    · obtain ⟨out, hout, rfl⟩ := map_eq_ok_iff.mp h
      obtain ⟨hascii, hparameters⟩ := parameterText_of_readParameters hout
      exact ⟨isAscii_escaped hg hascii, .boundary hparameters⟩
  | case4 e after he ih =>
    obtain ⟨t, ht, rfl⟩ := map_eq_ok_iff.mp h
    obtain ⟨hascii, hbody⟩ := ih ht
    have hc := Glyph.not_mem_escapes_iff.mpr he
    exact ⟨isAscii_cons_iff.mpr ⟨by decide, hascii⟩, .separator hc hbody⟩
  | case5 c r hc ih =>
    rw [readName] at h
    split at h
    · next hlt =>
      obtain ⟨t, ht, rfl⟩ := map_eq_ok_iff.mp h
      obtain ⟨hascii, hbody⟩ := ih ht
      exact ⟨isAscii_cons_iff.mpr ⟨hlt, hascii⟩, .plain hc hbody⟩
    · cases h

theorem Spelled.method_eq_ok_iff {s : Spelled} {id : MethodId} : s.method = .ok id ↔
    ∃ segments name, segments ≠ [] ∧ s.segments = segments ++ [name] ∧ id = {
      className := String.ofList (join '/' segments)
      methodName := String.ofList name
      parameters := s.parameters.map fun cs => String.ofList ('(' :: cs ++ [')']) } := by
  unfold method
  constructor
  · intro h
    split at h
    · next name segment others hreverse =>
      obtain rfl := Except.ok.inj h
      refine ⟨(segment :: others).reverse, name, by simp, ?_, rfl⟩
      rw [← List.reverse_reverse s.segments, hreverse, List.reverse_cons]
    · cases h
  · rintro ⟨segments, name, hne, hsegments, rfl⟩
    cases hreverse : segments.reverse with
    | nil => exact absurd (List.reverse_eq_nil_iff.mp hreverse) hne
    | cons segment others =>
      have hback : (segment :: others).reverse = segments := by
        rw [← hreverse, List.reverse_reverse]
      rw [hsegments, List.reverse_append, hreverse]
      simp only [List.reverse_singleton, List.singleton_append, hback]

theorem body?_eq_some_iff {text : String} {body : List Char} :
    body? text = some body ↔ text = String.ofList (namePrefix.toList ++ body) := by
  unfold body?
  rw [Option.ite_none_right_eq_some, List.isPrefixOf_iff_prefix, Option.some_inj]
  constructor
  · rintro ⟨hstart, rfl⟩
    rw [List.prefix_iff_eq_append.mp hstart, String.ofList_toList]
  · rintro rfl
    simp

theorem symbolText_iff {text : String} {body : List Char} (hbody : body? text = some body)
    {id : MethodId} : SymbolText text id ↔
      (readName 0 (Glyph.ofChars body) >>= Spelled.method) = .ok id := by
  obtain rfl := body?_eq_some_iff.mp hbody
  rw [bind_eq_ok_iff]
  simp only [Spelled.method_eq_ok_iff]
  constructor
  · generalize htext : String.ofList (namePrefix.toList ++ body) = text
    rintro ⟨hascii, hclass, h⟩
    obtain rfl := List.append_cancel_left (String.ofList_injective htext)
    exact ⟨_, h.readName hascii 0, _, _, hclass, rfl, rfl⟩
  · rintro ⟨⟨_, parameters⟩, hread, segments, name, hclass, rfl, rfl⟩
    obtain ⟨hascii, h⟩ := bodyText_of_readName hread
    exact .intro hascii hclass h

/-- The texts of the grammar are read and no others. -/
theorem demangle_accepts {text : String}
    (h : ∀ body, text.toList = namePrefix.toList ++ body → byteLength body < maxLength) :
    (∀ id, demangle text = .ok id ↔ SymbolText text id) ∧
      ((¬∃ id, SymbolText text id) →
        ∃ defect, demangle text = .error (.malformedSymbol text defect)) := by
  cases hbody : body? text with
  | none =>
    have hrefused : demangle text = .error (.malformedSymbol text .noPrefix) := by
      rw [demangle, hbody]
    refine ⟨fun id => ?_, fun _ => ⟨_, hrefused⟩⟩
    rw [hrefused]
    refine iff_of_false (by simp) ?_
    rintro ⟨-, -, -⟩
    rw [body?_eq_some_iff.mpr rfl] at hbody
    cases hbody
  | some body =>
    have hlength := h body (by rw [body?_eq_some_iff.mp hbody, String.toList_ofList])
    have hread : demangle text = (readName 0 (Glyph.ofChars body) >>= Spelled.method).mapError
        (.malformedSymbol text) := by
      rw [demangle, hbody]
      exact if_neg (Nat.not_le_of_lt hlength)
    rw [hread]
    refine ⟨fun id => ?_, fun hnone => ?_⟩
    · rw [mapError_eq_ok_iff, symbolText_iff hbody]
    · cases hmethod : readName 0 (Glyph.ofChars body) >>= Spelled.method with
      | error defect => exact ⟨defect, rfl⟩
      | ok id => exact absurd ⟨id, (symbolText_iff hbody).mpr hmethod⟩ hnone

theorem demangle_accepts_overloaded :
    (∀ body, "Java_org_x_1y_run__Lx_2_3I_4".toList = namePrefix.toList ++ body →
      byteLength body < maxLength) ∧
    SymbolText "Java_org_x_1y_run__Lx_2_3I_4" ⟨"org/x_y", "run", some "(Lx;[I/4)"⟩ := by
  have h : ∀ body, "Java_org_x_1y_run__Lx_2_3I_4".toList = namePrefix.toList ++ body →
      byteLength body < maxLength := by
    intro body hbody
    have hsame : namePrefix.toList ++ body =
        namePrefix.toList ++ "org_x_1y_run__Lx_2_3I_4".toList := hbody.symm.trans (by decide)
    rw [List.append_cancel_left hsame]
    decide
  exact ⟨h, ((demangle_accepts h).1 _).mp (by decide +kernel)⟩

end NativeBridge.Symbol
