import NativeBridge.Json.Reader
import NativeBridge.Text.Utf8

/-! # String literals in JSON texts

A literal is read as the bytes between its quotes, escapes included, and has to be UTF-8 as a
whole. A literal that is passed over only has its escapes looked at.
-/

namespace NativeBridge.Json

def hexValue? (b : UInt8) : Option Nat :=
  let n := b.toNat
  if 48 ≤ n ∧ n ≤ 57 then some (n - 48)
  else if 97 ≤ n ∧ n ≤ 102 then some (n - 87)
  else if 65 ≤ n ∧ n ≤ 70 then some (n - 55)
  else none

def readHex4 : List UInt8 → Except Mishap (Nat × List UInt8)
  | a :: b :: c :: d :: r =>
    match hexValue? a, hexValue? b, hexValue? c, hexValue? d with
    | some a, some b, some c, some d => .ok (((a * 16 + b) * 16 + c) * 16 + d, r)
    | _, _, _, _ => .error .badSyntax
  | _ => .error .ended

def isHighSurrogate (n : Nat) : Bool := 0xD800 ≤ n && n < 0xDC00

def isLowSurrogate (n : Nat) : Bool := 0xDC00 ≤ n && n < 0xE000

/-- The character that a pair of surrogates stands for. -/
def ofSurrogates (high low : Nat) : Char :=
  Char.ofNat (0x10000 + (high - 0xD800) * 0x400 + (low - 0xDC00))

/-- Reads a numbered character after `\u`; a high surrogate is completed by a low one. -/
def readNumbered (s : List UInt8) : Except Mishap (Char × List UInt8) := do
  let (n, r) ← readHex4 s
  if isLowSurrogate n then .error .badSyntax
  else if isHighSurrogate n then
    let r ← expect ['\\', 'u'] r
    let (low, r) ← readHex4 r
    if isLowSurrogate low then .ok (ofSurrogates n low, r) else .error .badSyntax
  else .ok (Char.ofNat n, r)

def simpleEscape? (b : UInt8) : Option Char :=
  match Char.ofNat b.toNat with
  | '"' => some '"'
  | '\\' => some '\\'
  | '/' => some '/'
  | 'b' => some '\x08'
  | 'f' => some '\x0c'
  | 'n' => some '\n'
  | 'r' => some '\r'
  | 't' => some '\t'
  | _ => none

def readEscape : List UInt8 → Except Mishap (Char × List UInt8)
  | [] => .error .ended
  | b :: r => match simpleEscape? b with
    | some c => .ok (c, r)
    | none => if spells 'u' b then readNumbered r else .error .badSyntax

theorem length_readHex4 {s rest : List UInt8} {n : Nat} (h : readHex4 s = .ok (n, rest)) :
    rest.length < s.length := by
  unfold readHex4 at h
  split at h
  · split at h
    · cases h; simp only [List.length_cons]; omega
    · cases h
  · cases h

theorem length_readNumbered {s rest : List UInt8} {c : Char} (h : readNumbered s = .ok (c, rest)) :
    rest.length < s.length := by
  unfold readNumbered at h
  cases h4 : readHex4 s with
  | error e => rw [h4] at h; cases h
  | ok p =>
    have := length_readHex4 h4
    rw [h4] at h
    simp only [bind, Except.bind] at h
    split at h
    · cases h
    split at h
    · split at h
      · cases h
      next r he =>
        have := length_expect he
        split at h
        · cases h
        next q hl =>
          have := length_readHex4 hl
          split at h
          · simp only [Except.ok.injEq, Prod.mk.injEq] at h
            obtain ⟨-, rfl⟩ := h
            simp only [List.length_cons, List.length_nil] at *
            omega
          · cases h
    · cases h; exact this

theorem length_readEscape {s rest : List UInt8} {c : Char} (h : readEscape s = .ok (c, rest)) :
    rest.length < s.length := by
  unfold readEscape at h
  split at h
  · cases h
  next b r =>
    split at h
    · cases h; exact Nat.lt_succ_self _
    · split at h
      · exact Nat.lt_succ_of_lt (length_readNumbered h)
      · cases h

/-- The bytes up to the closing quote, escapes being put in. -/
def readBytes (s : List UInt8) : Except Mishap (List UInt8 × List UInt8) :=
  match s with
  | [] => .error .ended
  | b :: r =>
    if spells '"' b then .ok ([], r)
    else if spells '\\' b then
      match h : readEscape r with
      | .error mishap => .error mishap
      | .ok (c, rest) =>
        have := length_readEscape h
        (readBytes rest).map fun (bytes, rest) => (String.utf8EncodeChar c ++ bytes, rest)
    else if b < 0x20 then .error .badSyntax
    else (readBytes r).map fun (bytes, rest) => (b :: bytes, rest)
termination_by s.length

/-- Reads a literal from after its opening quote on. -/
def readLiteral (s : List UInt8) : Except Mishap (String × List UInt8) := do
  let (bytes, rest) ← readBytes s
  match Text.decode? bytes with
  | some text => .ok (text, rest)
  | none => .error .badSyntax

def skipEscape : List UInt8 → Except Mishap (List UInt8)
  | [] => .error .ended
  | b :: r =>
    if (simpleEscape? b).isSome then .ok r
    else if spells 'u' b then (readHex4 r).map (·.2)
    else .error .badSyntax

theorem length_skipEscape {s rest : List UInt8} (h : skipEscape s = .ok rest) :
    rest.length < s.length := by
  unfold skipEscape at h
  split at h
  · cases h
  next b r =>
    split at h
    · cases h; exact Nat.lt_succ_self _
    split at h
    · cases h4 : readHex4 r with
      | error e => rw [h4] at h; cases h
      | ok p => rw [h4] at h; cases h; exact Nat.lt_succ_of_lt (length_readHex4 h4)
    · cases h

def skipLiteral (s : List UInt8) : Except Mishap (List UInt8) :=
  match s with
  | [] => .error .ended
  | b :: r =>
    if spells '"' b then .ok r
    else if spells '\\' b then
      match h : skipEscape r with
      | .error mishap => .error mishap
      | .ok rest =>
        have := length_skipEscape h
        skipLiteral rest
    else if b < 0x20 then .error .badSyntax
    else skipLiteral r
termination_by s.length

end NativeBridge.Json
