import NativeBridge.Proofs.Symbol.Grammar
import NativeBridge.Proofs.Symbol.Reading
import NativeBridge.Proofs.Symbol.Separation

/-! # Reading a symbol name back

A method's symbol name is read back as the method exactly when the glyphs are kept apart in it:
when no segment after a separator starts with an underscore, and no slash of the parameters stands
before what would make another glyph of the underscore that is written for it.
-/

namespace NativeBridge.Symbol

open Text

theorem parameters_of_spelled? {id : MethodId} {s : Spelled} (h : spelled? id = some s) :
    s.parameters.map (fun cs => String.ofList ('(' :: cs ++ [')'])) = id.parameters := by
  unfold spelled? at h
  dsimp only at h
  split at h
  · next hnone =>
    obtain rfl := Option.some.inj h
    exact hnone.symm
  · next parameters hsome =>
    obtain ⟨inner, hinner, rfl⟩ := Option.map_eq_some_iff.mp h
    rw [hsome, Option.map_some, ← unwrap?_eq_some_iff.mp hinner, String.ofList_toList]

theorem method_of_spelled? {id : MethodId} {s : Spelled} (h : spelled? id = some s) :
    s.method = .ok id := by
  refine Spelled.method_eq_ok_iff.mpr
    ⟨_, _, pieces_ne_nil (· == '/') _, segments_of_spelled? h, ?_⟩
  rw [join_pieces, parameters_of_spelled? h, String.ofList_toList, String.ofList_toList]

theorem spelled?_of_method {id : MethodId} {s : Spelled}
    (hslash : ∀ segment ∈ s.segments, '/' ∉ segment) (h : s.method = .ok id) :
    spelled? id = some s := by
  obtain ⟨segments, parameters⟩ := s
  obtain ⟨classSegments, name, hne, rfl, rfl⟩ := Spelled.method_eq_ok_iff.mp h
  have hpieces : pieces (· == '/') (join '/' classSegments) = classSegments :=
    pieces_join hne fun part hpart => hslash part (List.mem_append_left _ hpart)
  cases parameters with
  | none => simp only [spelled?, Option.map_none, String.toList_ofList, hpieces]
  | some cs =>
    simp only [spelled?, Option.map_some, String.toList_ofList, hpieces,
      unwrap?_eq_some_iff.mpr rfl]

namespace Spelled.Spellable

/-- The glyphs are read from their characters exactly when they are kept apart. -/
theorem ofChars_glyphs_iff {s : Spelled} (h : s.Spellable) :
    Glyph.ofChars (Glyph.toChars s.glyphs) = s.glyphs ↔ Separated s.glyphs := by
  refine Glyph.ofChars_toChars_iff ?_ ?_
  · intro c hc
    exact ne_of_isAlphanum ((h.isSpelling_of_mem_glyphs hc).plain c rfl) rfl
  · intro hdangling
    exact (h.isSpelling_of_mem_glyphs hdangling).not_dangling rfl

theorem isAlphanum_of_plain_mem {s : Spelled} (h : s.Spellable) {c : Char}
    (hc : .plain c ∈ Glyph.ofChars (Glyph.toChars s.glyphs)) : c.isAlphanum = true := by
  obtain ⟨hmem, hunder⟩ := Glyph.mem_toChars_of_plain_mem_ofChars hc
  obtain ⟨g, hg, hmem⟩ := List.mem_flatMap.mp hmem
  exact ((h.isSpelling_of_mem_glyphs hg).of_mem_chars hmem).resolve_left hunder

theorem readName_glyphs {s : Spelled} (h : s.Spellable) (hne : s.segments ≠ []) (offset : Nat) :
    readName offset s.glyphs = .ok s := by
  refine Symbol.readName_glyphs hne ?_ ?_ offset
  · intro segment hsegment c hc
    exact ((h.segments segment hsegment).chars c hc).toNat_lt
  · intro cs hcs c hc
    exact (h.parameters cs hcs c hc).toNat_lt

end Spelled.Spellable

/-- A spelling is read back as its method exactly when its glyphs are kept apart. -/
theorem method_of_glyphs_iff {id : MethodId} {s : Spelled} (hs : spelled? id = some s)
    (h : s.Spellable) :
    (readName 0 (Glyph.ofChars (Glyph.toChars s.glyphs)) >>= Spelled.method) = .ok id ↔
      Separated s.glyphs := by
  rw [← h.ofChars_glyphs_iff]
  constructor
  · intro hread
    obtain ⟨t, ht, hmethod⟩ := Checked.bind_eq_ok_iff.mp hread
    obtain ⟨-, hglyphs, hslash⟩ := glyphs_of_readName (fun c => h.isAlphanum_of_plain_mem) ht
    -- the method has one spelling only, so what was read is what was spelled
    obtain rfl : s = t := Option.some.inj (hs.symm.trans (spelled?_of_method hslash hmethod))
    exact hglyphs.symm
  · intro hglyphs
    have hne : s.segments ≠ [] := by
      rw [segments_of_spelled? hs]
      simp
    rw [hglyphs, Checked.bind_eq_ok_iff]
    exact ⟨s, h.readName_glyphs hne 0, method_of_spelled? hs⟩

theorem demangle_of_body? {symbol : String} {body : List Char} (hbody : body? symbol = some body)
    (hlength : byteLength body < maxLength) (id : MethodId) : demangle symbol = .ok id ↔
      (readName 0 (Glyph.ofChars body) >>= Spelled.method) = .ok id := by
  rw [demangle]
  simp only [hbody, if_neg (Nat.not_le_of_lt hlength), Checked.mapError_eq_ok_iff]

/-- Whether no segment after the first starts with an underscore, and every slash among the
parameters stands before a letter or a digit above three. -/
structure Readable (id : MethodId) : Prop where
  className : AfterEach '/' (fun after => after.head? ≠ some '_') id.className.toList
  methodName : id.methodName.toList.head? ≠ some '_'
  parameters : ∀ parameters ∈ id.parameters, AfterEach '/' StartsPlain parameters.toList

theorem afterEach_parenthesized_iff (inner : List Char) :
    AfterEach '/' StartsPlain ('(' :: inner ++ [')']) ↔ AfterEach '/' StartsPlain inner := by
  rw [List.cons_append, afterEach_cons_iff, afterEach_append_singleton_iff (by decide)
    startsPlain_append_parenthesis_iff]
  simp

theorem readable_parameters_iff {id : MethodId} {s : Spelled} (hs : spelled? id = some s)
    (h : s.Spellable) :
    (∀ parameters ∈ id.parameters, AfterEach '/' StartsPlain parameters.toList) ↔
      ∀ cs ∈ s.parameters, Separated (cs.map parameterGlyph) := by
  rw [← parameters_of_spelled? hs]
  obtain ⟨segments, parameters⟩ := s
  cases parameters with
  | none => simp
  | some cs =>
    have hcs := separated_map_parameterGlyph_iff (h.parameters cs rfl)
    simp [hcs, ← afterEach_parenthesized_iff cs]

/-- A method is readable when the glyphs that spell it are kept apart. -/
theorem separated_glyphs_iff_readable {id : MethodId} {s : Spelled} (hs : spelled? id = some s)
    (h : s.Spellable) : Separated s.glyphs ↔ Readable id := by
  have hne := pieces_ne_nil (· == '/') id.className.toList
  rw [h.separated_glyphs_iff, ← readable_parameters_iff hs h, segments_of_spelled? hs,
    List.tail_append_of_ne_nil hne, List.forall_mem_append, tail_pieces_iff (by decide)]
  constructor
  · rintro ⟨⟨hclass, hmethod⟩, hparameters⟩
    exact ⟨hclass, hmethod _ (List.mem_singleton.mpr rfl), hparameters⟩
  · rintro ⟨hclass, hmethod, hparameters⟩
    refine ⟨⟨hclass, ?_⟩, hparameters⟩
    intro segment hsegment
    rwa [List.mem_singleton.mp hsegment]

/-- A symbol name is read back as the method that it was made for exactly when that is readable. -/
theorem demangle_mangle_iff {id : MethodId} {symbol : String} (h : mangle id = .ok symbol) :
    demangle symbol = .ok id ↔ Readable id := by
  obtain ⟨s, hs, hspellable, hlength, rfl⟩ := mangle_eq_ok_iff.mp h
  rw [demangle_of_body? (body?_eq_some_iff.mpr rfl) hlength, method_of_glyphs_iff hs hspellable,
    separated_glyphs_iff_readable hs hspellable]

theorem demangle_mangle_lwjgl :
    mangle ⟨"org/lwjgl_3/Native_Lib", "n_create", some "(Ljava/lang/String;[IJ)"⟩ =
        .ok "Java_org_lwjgl_13_Native_1Lib_n_1create__Ljava_lang_String_2_3IJ" ∧
      Readable ⟨"org/lwjgl_3/Native_Lib", "n_create", some "(Ljava/lang/String;[IJ)"⟩ := by
  have h : mangle ⟨"org/lwjgl_3/Native_Lib", "n_create", some "(Ljava/lang/String;[IJ)"⟩ =
      .ok "Java_org_lwjgl_13_Native_1Lib_n_1create__Ljava_lang_String_2_3IJ" := by
    decide +kernel
  exact ⟨h, (demangle_mangle_iff h).mp (by decide +kernel)⟩

/-- The separator before an underscore is read as a boundary. -/
example : mangle ⟨"x/a", "_b", none⟩ = .ok "Java_x_a__1b" ∧
    demangle "Java_x_a__1b" = .ok ⟨"x", "a", some "(1b)"⟩ := by
  decide +kernel

end NativeBridge.Symbol
