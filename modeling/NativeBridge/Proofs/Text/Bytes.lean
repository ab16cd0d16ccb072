import NativeBridge.Proofs.Checked
import NativeBridge.Text.Utf8

/-! # Characters among bytes

The bytes of a text are those of its parts, one part after the other. A byte below 128 where a
character begins is that character.
-/

namespace NativeBridge.Text

def bytes (cs : List Char) : List UInt8 :=
  cs.flatMap String.utf8EncodeChar

@[simp] theorem bytes_nil : bytes [] = [] := rfl

@[simp] theorem bytes_append (first second : List Char) :
    bytes (first ++ second) = bytes first ++ bytes second :=
  List.flatMap_append

theorem bytes_cons (c : Char) (cs : List Char) :
    bytes (c :: cs) = String.utf8EncodeChar c ++ bytes cs :=
  List.flatMap_cons

@[simp] theorem byteLength_nil : byteLength [] = 0 := rfl

@[simp] theorem byteLength_append (first second : List Char) :
    byteLength (first ++ second) = byteLength first + byteLength second := by
  simp [byteLength]

theorem byteLength_cons (c : Char) (cs : List Char) :
    byteLength (c :: cs) = c.utf8Size + byteLength cs := by
  simp [byteLength]

theorem utf8Size_of_ascii {c : Char} (h : c.toNat < 128) : c.utf8Size = 1 := by
  rw [Char.utf8Size_eq_one_iff, UInt32.le_iff_toNat_le]
  exact Nat.le_of_lt_succ h

theorem encodeChar_of_ascii {c : Char} (h : c.toNat < 128) :
    String.utf8EncodeChar c = [c.toUInt8] :=
  String.utf8EncodeChar_eq_singleton (utf8Size_of_ascii h)

theorem bytes_cons_of_ascii {c : Char} (h : c.toNat < 128) (cs : List Char) :
    bytes (c :: cs) = c.toUInt8 :: bytes cs := by
  rw [bytes_cons, encodeChar_of_ascii h]
  rfl

theorem bytes_eq_map {cs : List Char} (h : ∀ c ∈ cs, c.toNat < 128) :
    bytes cs = cs.map Char.toUInt8 := by
  induction cs with
  | nil => rfl
  | cons c cs ih =>
    obtain ⟨hc, hcs⟩ := List.forall_mem_cons.mp h
    rw [bytes_cons_of_ascii hc, ih hcs, List.map_cons]

/-- A character from 128 on is spelled by such bytes alone. -/
theorem le_of_mem_encodeChar {c : Char} (h : 128 ≤ c.toNat) {b : UInt8}
    (hb : b ∈ String.utf8EncodeChar c) : 128 ≤ b.toNat := by
  have hascii : ¬c.val.toNat ≤ 127 := Nat.not_le_of_lt h
  unfold String.utf8EncodeChar at hb
  simp only [hascii, if_false] at hb
  split at hb
  · simp only [List.mem_cons, List.not_mem_nil, or_false] at hb
    rcases hb with rfl | rfl <;> rw [UInt8.toNat_ofNat'] <;> omega
  · split at hb
    · simp only [List.mem_cons, List.not_mem_nil, or_false] at hb
      rcases hb with rfl | rfl | rfl <;> rw [UInt8.toNat_ofNat'] <;> omega
    · simp only [List.mem_cons, List.not_mem_nil, or_false] at hb
      rcases hb with rfl | rfl | rfl | rfl <;> rw [UInt8.toNat_ofNat'] <;> omega

theorem firstByte_of_ascii {c : Char} (h : c.toNat < 128) : firstByte c = .ofNat c.toNat := by
  rw [firstByte, encodeChar_of_ascii h]
  rfl

theorem exists_encodeChar (c : Char) : ∃ r, String.utf8EncodeChar c = firstByte c :: r := by
  have hpos := String.length_utf8EncodeChar c ▸ c.utf8Size_pos
  obtain ⟨b, r, hbytes⟩ := List.exists_cons_of_length_pos hpos
  exact ⟨r, by rw [firstByte, hbytes, List.headD_cons]⟩

theorem le_firstByte {c : Char} (h : 128 ≤ c.toNat) : 128 ≤ (firstByte c).toNat := by
  obtain ⟨r, hbytes⟩ := exists_encodeChar c
  refine le_of_mem_encodeChar h ?_
  rw [hbytes]
  exact List.mem_cons_self

def latin1 (b : UInt8) : Char :=
  Char.ofNat b.toNat

/-- A byte below 128 with which a character begins is that character. -/
theorem latin1_firstByte_eq_iff {c a : Char} (ha : a.toNat < 128) :
    latin1 (firstByte c) = a ↔ c = a := by
  rcases Nat.lt_or_ge c.toNat 128 with hc | hc
  · have hself : latin1 (firstByte c) = c := by
      rw [latin1, firstByte_of_ascii hc, UInt8.toNat_ofNat', Nat.mod_eq_of_lt (by omega),
        Char.ofNat_toNat]
    rw [hself]
  · have hle : 128 ≤ (latin1 (firstByte c)).toNat := by
      have hbyte := le_firstByte hc
      have hlt := (firstByte c).toNat_lt
      have hvalid : (firstByte c).toNat.isValidChar := .inl (by omega)
      rwa [latin1, Char.toNat_ofNat, if_pos hvalid]
    constructor
    · rintro rfl
      omega
    · rintro rfl
      omega

theorem getElem?_bytes (before rest : List Char) :
    ((before ++ rest).flatMap String.utf8EncodeChar)[byteLength before]? =
      rest.head?.map firstByte := by
  rw [List.flatMap_append, byteLength, List.getElem?_append_right le_rfl, Nat.sub_self]
  cases rest with
  | nil => rfl
  | cons c rest =>
    obtain ⟨r, hbytes⟩ := exists_encodeChar c
    simp [hbytes]

theorem byteLength_eq_zero_iff {cs : List Char} : byteLength cs = 0 ↔ cs = [] := by
  cases cs with
  | nil => simp
  | cons c cs => simpa [byteLength_cons] using fun h => absurd h c.utf8Size_pos.ne'

/-- The characters from a byte on, if one begins there or the text ends. -/
def sliceFrom? : List Char → Nat → Option (List Char)
  | cs, 0 => some cs
  | [], _ + 1 => none
  | c :: cs, n + 1 => if c.utf8Size ≤ n + 1 then sliceFrom? cs (n + 1 - c.utf8Size) else none

/-- A text is cut only where some of its characters end. -/
theorem sliceFrom?_eq_some_iff {cs rest : List Char} {n : Nat} :
    sliceFrom? cs n = some rest ↔ ∃ before, cs = before ++ rest ∧ byteLength before = n := by
  fun_induction sliceFrom? cs n with
  | case1 cs =>
    rw [Option.some_inj]
    constructor
    · rintro rfl
      exact ⟨[], rfl, rfl⟩
    · rintro ⟨before, rfl, hbefore⟩
      rw [byteLength_eq_zero_iff.mp hbefore, List.nil_append]
  | case2 n =>
    refine iff_of_false (by simp) ?_
    rintro ⟨before, hcs, hbefore⟩
    rw [(List.append_eq_nil_iff.mp hcs.symm).1] at hbefore
    cases hbefore
  | case3 c cs n hle ih =>
    rw [ih]
    constructor
    · rintro ⟨before, rfl, hbefore⟩
      exact ⟨c :: before, rfl, by rw [byteLength_cons, hbefore, Nat.add_sub_cancel' hle]⟩
    · rintro ⟨before, hcs, hbefore⟩
      cases before with
      | nil => cases hbefore
      | cons c' before =>
        obtain ⟨rfl, rfl⟩ := List.cons.inj hcs
        exact ⟨before, rfl, by rw [byteLength_cons] at hbefore; omega⟩
  | case4 c cs n hle =>
    refine iff_of_false (by simp) ?_
    rintro ⟨before, hcs, hbefore⟩
    cases before with
    | nil => cases hbefore
    | cons c' before =>
      obtain ⟨rfl, rfl⟩ := List.cons.inj hcs
      rw [byteLength_cons] at hbefore
      omega

def find? (c : Char) (cs : List Char) : Option Nat :=
  if c ∈ cs then some (byteLength (cs.takeWhile (· != c))) else none

end NativeBridge.Text
