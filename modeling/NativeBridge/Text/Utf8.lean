/-! # UTF-8

Bytes are read as characters, strictly or with U+FFFD for each part that starts no character. A
broken part is as long as some character's beginning can be. Reading undoes writing.
-/

namespace NativeBridge.Text

/-- The part of a character read so far: how many bytes are owed after the next one, the range
that the next one lies in, and the bits collected. -/
structure Owed where
  later : Nat
  low : Nat
  high : Nat
  bits : Nat

inductive Lead
  | char (c : Char)
  | owes (owed : Owed)
  | broken

def Lead.ofByte (byte : UInt8) : Lead :=
  let b := byte.toNat
  if b < 0x80 then .char (Char.ofNat b)
  else if b < 0xC2 then .broken
  else if b < 0xE0 then .owes ⟨0, 0x80, 0xBF, b % 32⟩
  else if b < 0xF0 then
    .owes ⟨1, if b = 0xE0 then 0xA0 else 0x80, if b = 0xED then 0x9F else 0xBF, b % 16⟩
  else if b < 0xF5 then
    .owes ⟨2, if b = 0xF0 then 0x90 else 0x80, if b = 0xF4 then 0x8F else 0xBF, b % 8⟩
  else .broken

/-- The characters of the bytes after the part `owed`, with `none` for each broken part. -/
def scan : Option Owed → List UInt8 → List (Option Char)
  | none, [] => []
  | some _, [] => [none]
  | none, b :: r => match Lead.ofByte b with
    | .char c => some c :: scan none r
    | .owes owed => scan (some owed) r
    | .broken => none :: scan none r
  | some owed, b :: r =>
    if owed.low ≤ b.toNat ∧ b.toNat ≤ owed.high then
      match owed.later with
      | 0 => some (Char.ofNat (owed.bits * 64 + b.toNat % 64)) :: scan none r
      | later + 1 => scan (some ⟨later, 0x80, 0xBF, owed.bits * 64 + b.toNat % 64⟩) r
    else match Lead.ofByte b with
      | .char c => none :: some c :: scan none r
      | .owes next => none :: scan (some next) r
      | .broken => none :: none :: scan none r

def decode? (bytes : List UInt8) : Option String :=
  ((scan none bytes).mapM id).map String.ofList

/-- The text with U+FFFD for each broken part. -/
def decodeLossy (bytes : List UInt8) : String :=
  String.ofList ((scan none bytes).map (·.getD '\uFFFD'))

def encode (s : String) : List UInt8 :=
  s.toList.flatMap String.utf8EncodeChar

def byteLength (cs : List Char) : Nat :=
  (cs.flatMap String.utf8EncodeChar).length

def firstByte (c : Char) : UInt8 :=
  (String.utf8EncodeChar c).headD 0

theorem scan_encodeChar (c : Char) (r : List UInt8) :
    scan none (String.utf8EncodeChar c ++ r) = some c :: scan none r := by
  have valid : c.toNat < 0xD800 ∨ 0xDFFF < c.toNat ∧ c.toNat < 0x110000 := c.valid
  have back : Char.ofNat c.toNat = c := Char.ofNat_toNat c
  simp only [String.utf8EncodeChar]
  generalize hv : c.val.toNat = v
  have hv : c.toNat = v := hv
  rw [hv] at valid back
  split
  · have : v % 256 = v := by omega
    have : v < 128 := by omega
    simp [scan, Lead.ofByte, *]
  split
  · have h1 : (v / 64 % 32 + 192) % 256 = v / 64 % 32 + 192 := by omega
    have h2 : (v % 64 + 128) % 256 = v % 64 + 128 := by omega
    have bits : (v / 64 % 32 + 192) % 32 * 64 + (v % 64 + 128) % 64 = v := by omega
    have n1 : ¬ v / 64 % 32 + 192 < 128 := by omega
    have n2 : ¬ v / 64 % 32 + 192 < 194 := by omega
    have n3 : v / 64 % 32 + 192 < 224 := by omega
    have r1 : v % 64 + 128 ≤ 191 := by omega
    simp only [List.cons_append, List.nil_append, scan, Lead.ofByte, UInt8.toNat_ofNat',
      Nat.reducePow, h1, h2, n1, n2, n3, if_true, if_false, bits, back, r1, Nat.le_add_left,
      and_self]
  split
  · have h1 : (v / 4096 % 16 + 224) % 256 = v / 4096 % 16 + 224 := by omega
    have h2 : (v / 64 % 64 + 128) % 256 = v / 64 % 64 + 128 := by omega
    have h3 : (v % 64 + 128) % 256 = v % 64 + 128 := by omega
    have bits : ((v / 4096 % 16 + 224) % 16 * 64 + (v / 64 % 64 + 128) % 64) * 64
        + (v % 64 + 128) % 64 = v := by omega
    have n1 : ¬ v / 4096 % 16 + 224 < 128 := by omega
    have n2 : ¬ v / 4096 % 16 + 224 < 194 := by omega
    have n3 : ¬ v / 4096 % 16 + 224 < 224 := by omega
    have n4 : v / 4096 % 16 + 224 < 240 := by omega
    have low : (if v / 4096 % 16 + 224 = 224 then 160 else 128) ≤ v / 64 % 64 + 128 := by
      split <;> omega
    have high : v / 64 % 64 + 128 ≤ (if v / 4096 % 16 + 224 = 237 then 159 else 191) := by
      split <;> omega
    have r2 : v % 64 + 128 ≤ 191 := by omega
    simp only [List.cons_append, List.nil_append, scan, Lead.ofByte, UInt8.toNat_ofNat',
      Nat.reducePow, h1, h2, h3, n1, n2, n3, n4, if_true, if_false, low, high, bits, back, r2,
      Nat.le_add_left, and_self]
  · have h1 : (v / 262144 % 8 + 240) % 256 = v / 262144 % 8 + 240 := by omega
    have h2 : (v / 4096 % 64 + 128) % 256 = v / 4096 % 64 + 128 := by omega
    have h3 : (v / 64 % 64 + 128) % 256 = v / 64 % 64 + 128 := by omega
    have h4 : (v % 64 + 128) % 256 = v % 64 + 128 := by omega
    have bits : (((v / 262144 % 8 + 240) % 8 * 64 + (v / 4096 % 64 + 128) % 64) * 64
        + (v / 64 % 64 + 128) % 64) * 64 + (v % 64 + 128) % 64 = v := by omega
    have n1 : ¬ v / 262144 % 8 + 240 < 128 := by omega
    have n2 : ¬ v / 262144 % 8 + 240 < 194 := by omega
    have n3 : ¬ v / 262144 % 8 + 240 < 224 := by omega
    have n4 : ¬ v / 262144 % 8 + 240 < 240 := by omega
    have n5 : v / 262144 % 8 + 240 < 245 := by omega
    have low : (if v / 262144 % 8 + 240 = 240 then 144 else 128) ≤ v / 4096 % 64 + 128 := by
      split <;> omega
    have high : v / 4096 % 64 + 128 ≤ (if v / 262144 % 8 + 240 = 244 then 143 else 191) := by
      split <;> omega
    have r2 : v / 64 % 64 + 128 ≤ 191 := by omega
    have r3 : v % 64 + 128 ≤ 191 := by omega
    simp only [List.cons_append, List.nil_append, scan, Lead.ofByte, UInt8.toNat_ofNat',
      Nat.reducePow, h1, h2, h3, h4, n1, n2, n3, n4, n5, if_true, if_false, low, high, bits, back,
      r2, r3, Nat.le_add_left, and_self]

theorem scan_encodeChars (cs : List Char) (r : List UInt8) :
    scan none (cs.flatMap String.utf8EncodeChar ++ r) = cs.map some ++ scan none r := by
  induction cs with
  | nil => rfl
  | cons c cs ih => simp [List.append_assoc, scan_encodeChar, ih]

theorem scan_encode (s : String) : scan none (encode s) = s.toList.map some := by
  simpa [encode, scan] using scan_encodeChars s.toList []

theorem mapM_id_map_some {α : Type} (l : List α) : (l.map some).mapM id = some l := by
  induction l with
  | nil => rfl
  | cons a l ih => simp [List.mapM_cons, ih]

theorem decode?_encode (s : String) : decode? (encode s) = some s := by
  rw [decode?, scan_encode, mapM_id_map_some]
  simp

example : decodeLossy [0x61, 0xE2, 0x82, 0x62, 0xFF] = "a\uFFFDb\uFFFD" := by decide +kernel

end NativeBridge.Text
