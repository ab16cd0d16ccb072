import NativeBridge.Descriptor.Reader
import NativeBridge.Proofs.Text.Bytes

/-! # What is read as a descriptor

Every reader takes exactly the text of what it returns, and returns whatever the text before its
rest spells. So a text is decoded exactly when it is that of a readable descriptor.
-/

namespace NativeBridge

open Checked Text

theorem Primitive.ofLetter?_eq_some_iff {c : Char} {p : Primitive} :
    ofLetter? c = some p ↔ p.letter = c := by
  constructor
  · intro h
    unfold ofLetter? at h
    split at h <;> cases h <;> rfl
  · rintro rfl
    cases p <;> rfl

/-- A letter of a primitive type begins nothing else. -/
theorem Primitive.letter_plain (p : Primitive) :
    p.letter ≠ '[' ∧ p.letter ≠ 'L' ∧ p.letter ≠ 'V' ∧ p.letter ≠ ')' ∧ p.letter.toNat < 128 := by
  cases p <;> decide

namespace FieldType

theorem object_chars_append (className rest : List Char) :
    (object className).chars ++ rest = 'L' :: (className ++ ';' :: rest) := by
  rw [chars, List.append_assoc, List.singleton_append, List.cons_append]

theorem read_chars {f : FieldType} (h : f.Readable) (offset : Nat) (rest : List Char) :
    read offset (f.chars ++ rest) = .ok ⟨f, offset + byteLength f.chars, rest⟩ := by
  induction f generalizing offset with
  | primitive p =>
    obtain ⟨harray, hobject, hvoid, -, hascii⟩ := p.letter_plain
    rw [chars, List.singleton_append, read, if_neg harray, if_neg hobject, if_neg hvoid,
      Primitive.ofLetter?_eq_some_iff.mpr rfl, byteLength_cons, utf8Size_of_ascii hascii]
    rfl
  | object className =>
    obtain ⟨hne, hsemicolon⟩ := h
    have hplain : ∀ c ∈ className, (c != ';') = true := fun c hc => by
      simpa using ne_of_mem_of_not_mem hc hsemicolon
    have htake : (className ++ ';' :: rest).takeWhile (· != ';') = className := by
      rw [List.takeWhile_append_of_pos hplain]
      simp
    have hdrop : (className ++ ';' :: rest).dropWhile (· != ';') = ';' :: rest := by
      rw [List.dropWhile_append_of_pos hplain]
      simp
    have hlength : byteLength (object className).chars = byteLength className + 2 := by
      have hopen : 'L'.utf8Size = 1 := rfl
      have hclose : ';'.utf8Size = 1 := rfl
      rw [chars, byteLength_append, byteLength_cons, byteLength_cons, byteLength_nil]
      omega
    rw [object_chars_append, read, if_neg (by decide), if_pos rfl, hlength, ← Nat.add_assoc]
    simp only [htake, hdrop, List.isEmpty_iff, if_neg hne]
  | array element ih =>
    rw [chars, List.cons_append, read, if_pos rfl, ih h, byteLength_cons,
      utf8Size_of_ascii (by decide), ← Nat.add_assoc]
    rfl

theorem of_read {offset : Nat} {cs : List Char} {step : Step FieldType}
    (h : read offset cs = .ok step) :
    step.read.Readable ∧ cs = step.read.chars ++ step.rest := by
  induction cs generalizing offset step with
  | nil => cases h
  | cons c r ih =>
    rw [read] at h
    split at h
    · next harray =>
      obtain ⟨element, helement, rfl⟩ := map_eq_ok_iff.mp h
      obtain ⟨hreadable, hchars⟩ := ih helement
      exact ⟨hreadable, by rw [chars, List.cons_append, ← hchars, harray]⟩
    split at h
    · next hobject =>
      dsimp only at h
      split at h
      · cases h
      next semicolon rest hdrop =>
        split at h
        · cases h
        next hne =>
          obtain rfl := Except.ok.inj h
          rw [List.isEmpty_iff] at hne
          have hstop : semicolon = ';' := by
            have := List.head?_dropWhile_not (· != ';') r
            rw [hdrop] at this
            simpa using this
          refine ⟨⟨hne, fun hmem => ?_⟩, ?_⟩
          · simpa using List.mem_takeWhile_imp hmem
          · rw [object_chars_append, hobject]
            rw [hstop] at hdrop
            rw [← hdrop, List.takeWhile_append_dropWhile]
    split at h
    · cases h
    split at h
    · next p hletter =>
      obtain rfl := Except.ok.inj h
      exact ⟨trivial, by rw [chars, Primitive.ofLetter?_eq_some_iff.mp hletter]; rfl⟩
    · cases h

/-- Reading takes the text of one readable field type. -/
theorem read_eq_ok_iff {offset : Nat} {cs : List Char} {step : Step FieldType} :
    read offset cs = .ok step ↔ step.read.Readable ∧ cs = step.read.chars ++ step.rest ∧
      step.offset = offset + byteLength step.read.chars := by
  constructor
  · intro h
    obtain ⟨hreadable, hchars⟩ := of_read h
    refine ⟨hreadable, hchars, ?_⟩
    rw [hchars, read_chars hreadable] at h
    rw [← Except.ok.inj h]
  · rintro ⟨hreadable, rfl, hoffset⟩
    rw [read_chars hreadable, ← hoffset]

theorem head_chars_ne {f : FieldType} (a : Char) (h : a = ')' ∨ a = 'V') :
    ∃ c after, f.chars = c :: after ∧ c ≠ a := by
  cases f with
  | primitive p =>
    obtain ⟨-, -, hvoid, hclose, -⟩ := p.letter_plain
    refine ⟨_, _, rfl, ?_⟩
    rcases h with rfl | rfl
    · exact hclose
    · exact hvoid
  | object className => exact ⟨_, _, rfl, by rcases h with rfl | rfl <;> decide⟩
  | array element => exact ⟨_, _, rfl, by rcases h with rfl | rfl <;> decide⟩

end FieldType

namespace Descriptor

theorem readParameters_close (offset : Nat) (rest : List Char) :
    readParameters offset (')' :: rest) = .ok ⟨[], offset + 1, rest⟩ := by
  rw [readParameters, if_pos rfl]

/-- Before the closing parenthesis one more field type is read. -/
theorem readParameters_of_ne {c : Char} (h : c ≠ ')') (offset : Nat) (r : List Char) :
    readParameters offset (c :: r) = do
      let first ← FieldType.read offset (c :: r)
      let others ← readParameters first.offset first.rest
      return { others with read := first.read :: others.read } := by
  rw [readParameters, if_neg h]
  split
  · next hfirst => rw [hfirst]; rfl
  · next first hfirst =>
    dsimp only
    rw [hfirst]
    change _ = readParameters first.offset first.rest >>= _
    cases readParameters first.offset first.rest <;> rfl

theorem readParameters_chars {fs : List FieldType} (h : ∀ f ∈ fs, f.Readable) (offset : Nat)
    (rest : List Char) : readParameters offset (fs.flatMap FieldType.chars ++ ')' :: rest) =
      .ok ⟨fs, offset + byteLength (fs.flatMap FieldType.chars) + 1, rest⟩ := by
  induction fs generalizing offset with
  | nil => exact readParameters_close offset rest
  | cons f fs ih =>
    obtain ⟨hf, hfs⟩ := List.forall_mem_cons.mp h
    obtain ⟨c, after, hc, hne⟩ := f.head_chars_ne ')' (.inl rfl)
    have hread := FieldType.read_chars hf offset (fs.flatMap FieldType.chars ++ ')' :: rest)
    rw [List.flatMap_cons, List.append_assoc, byteLength_append, ← Nat.add_assoc]
    rw [hc, List.cons_append] at hread ⊢
    rw [readParameters_of_ne hne, hread]
    change (readParameters _ (fs.flatMap FieldType.chars ++ ')' :: rest) >>= _) = _
    rw [ih hfs]
    rfl

theorem readParameters_eq_ok_iff {offset : Nat} {cs : List Char} {step : Step (List FieldType)} :
    readParameters offset cs = .ok step ↔ (∀ f ∈ step.read, f.Readable) ∧
      cs = step.read.flatMap FieldType.chars ++ ')' :: step.rest ∧
      step.offset = offset + byteLength (step.read.flatMap FieldType.chars) + 1 := by
  constructor
  · intro h
    suffices hchars : (∀ f ∈ step.read, f.Readable) ∧
        cs = step.read.flatMap FieldType.chars ++ ')' :: step.rest by
      refine ⟨hchars.1, hchars.2, ?_⟩
      rw [hchars.2, readParameters_chars hchars.1] at h
      rw [← Except.ok.inj h]
    induction hn : cs.length using Nat.strongRecOn generalizing offset cs step with
    | _ n ih =>
      cases cs with
      | nil =>
        rw [readParameters] at h
        cases h
      | cons c r =>
        by_cases hc : c = ')'
        · rw [hc, readParameters_close] at h
          obtain rfl := Except.ok.inj h
          exact ⟨by simp, by rw [hc]; rfl⟩
        · rw [readParameters_of_ne hc] at h
          obtain ⟨first, hfirst, h⟩ := bind_eq_ok_iff.mp h
          obtain ⟨others, hothers, h⟩ := bind_eq_ok_iff.mp h
          obtain rfl := pure_eq_ok_iff.mp h
          obtain ⟨hreadable, hchars, -⟩ := FieldType.read_eq_ok_iff.mp hfirst
          obtain ⟨hall, hrest⟩ := ih _ (hn ▸ FieldType.length_rest_lt hfirst) hothers rfl
          refine ⟨List.forall_mem_cons.mpr ⟨hreadable, hall⟩, ?_⟩
          rw [hchars, hrest, List.flatMap_cons, List.append_assoc]
  · rintro ⟨hreadable, rfl, hoffset⟩
    rw [readParameters_chars hreadable, ← hoffset]

def resultChars : Option FieldType → List Char
  | some f => f.chars
  | none => ['V']

theorem chars_eq (d : Descriptor) :
    d.chars = '(' :: (d.parameters.flatMap FieldType.chars ++ ')' :: resultChars d.result) := by
  unfold chars resultChars
  cases d.result <;> rfl

theorem readResult_void (offset : Nat) (rest : List Char) :
    readResult offset ('V' :: rest) = .ok ⟨none, offset + 1, rest⟩ := by
  rw [readResult, if_pos rfl]

theorem readResult_of_ne {c : Char} (h : c ≠ 'V') (offset : Nat) (r : List Char) :
    readResult offset (c :: r) =
      (FieldType.read offset (c :: r)).map fun step => { step with read := some step.read } := by
  rw [readResult, if_neg h]

theorem readResult_eq_ok_iff {offset : Nat} {cs : List Char} {step : Step (Option FieldType)} :
    readResult offset cs = .ok step ↔ (∀ f ∈ step.read, f.Readable) ∧
      cs = resultChars step.read ++ step.rest ∧
      step.offset = offset + byteLength (resultChars step.read) := by
  constructor
  · intro h
    cases cs with
    | nil => cases h
    | cons c r =>
      by_cases hc : c = 'V'
      · rw [hc, readResult_void] at h
        obtain rfl := Except.ok.inj h
        exact ⟨by simp, by rw [hc]; rfl, rfl⟩
      · rw [readResult_of_ne hc] at h
        obtain ⟨found, hfound, rfl⟩ := map_eq_ok_iff.mp h
        obtain ⟨hreadable, hchars, hoffset⟩ := FieldType.read_eq_ok_iff.mp hfound
        exact ⟨by simpa using hreadable, hchars, hoffset⟩
  · obtain ⟨result, stop, rest⟩ := step
    rintro ⟨hreadable, rfl, hoffset⟩
    dsimp only at hreadable hoffset ⊢
    cases result with
    | none =>
      rw [hoffset]
      exact readResult_void offset rest
    | some f =>
      have hread := FieldType.read_chars (hreadable f rfl) offset rest
      obtain ⟨c, after, hc, hne⟩ := f.head_chars_ne 'V' (.inr rfl)
      rw [hoffset, resultChars]
      rw [hc, List.cons_append] at hread ⊢
      rw [readResult_of_ne hne, hread]
      rfl

theorem read_eq_ok_iff {cs : List Char} {d : Descriptor} :
    read cs = .ok d ↔ d.Readable ∧ d.chars = cs := by
  rw [chars_eq]
  constructor
  · intro h
    cases cs with
    | nil => cases h
    | cons c r =>
      rw [read] at h
      split at h
      · cases h
      next hopen =>
        obtain ⟨parameters, hparameters, h⟩ := bind_eq_ok_iff.mp h
        obtain ⟨result, hresult, h⟩ := bind_eq_ok_iff.mp h
        obtain ⟨hfs, hr, -⟩ := readParameters_eq_ok_iff.mp hparameters
        obtain ⟨hf, hrest, -⟩ := readResult_eq_ok_iff.mp hresult
        split at h
        · next hend =>
          obtain rfl := Except.ok.inj h
          rw [List.isEmpty_iff] at hend
          rw [hend, List.append_nil] at hrest
          exact ⟨⟨hfs, hf⟩, by rw [hr, hrest, not_not.mp hopen]⟩
        · cases h
  · rintro ⟨⟨hfs, hf⟩, rfl⟩
    obtain ⟨parameters, result⟩ := d
    have hparameters := readParameters_chars hfs 1 (resultChars result)
    have hresult (offset : Nat) : readResult offset (resultChars result) =
        .ok ⟨result, offset + byteLength (resultChars result), []⟩ :=
      readResult_eq_ok_iff.mpr ⟨hf, (List.append_nil _).symm, rfl⟩
    rw [read, if_neg (by simp)]
    exact bind_eq_ok_iff.mpr ⟨_, hparameters, bind_eq_ok_iff.mpr ⟨_, hresult _, rfl⟩⟩

theorem parse_eq_ok_iff {text : String} {d : Descriptor} :
    parse text = .ok d ↔ d.Readable ∧ d.text = text := by
  rw [parse, mapError_eq_ok_iff, read_eq_ok_iff, Descriptor.text]
  constructor
  · rintro ⟨h, hchars⟩
    exact ⟨h, by rw [hchars, String.ofList_toList]⟩
  · rintro ⟨h, rfl⟩
    exact ⟨h, (String.toList_ofList).symm⟩

end Descriptor

end NativeBridge
