import NativeBridge.Json.Reader
import NativeBridge.Text.Count

/-! # Numbers in JSON texts

A number is a count when it is written without sign, fraction and exponent and fits in 64 bits.
Any other number is only held against the range of a double.
-/

namespace NativeBridge.Json

open Text (countLimit)

inductive Number
  | count (n : Nat)
  | other
  deriving DecidableEq, Repr

def isDigit (b : UInt8) : Bool :=
  48 ≤ b && b ≤ 57

def digitValue (b : UInt8) : Nat := b.toNat - 48

/-- Extends a number by digits as long as it fits in 64 bits, and leaves the others. -/
def absorb (n : Nat) : List UInt8 → Nat × List UInt8
  | [] => (n, [])
  | d :: r =>
    if n * 10 + digitValue d < countLimit then absorb (n * 10 + digitValue d) r else (n, d :: r)

/-- The nearest number with 53 significant bits, the even one of two. -/
def toDouble (n : Nat) : Nat :=
  let extra := n.log2 + 1 - 53
  let unit := 1 <<< extra
  let (quotient, remainder) := (n / unit, n % unit)
  let up := unit < 2 * remainder || (2 * remainder == unit && quotient % 2 == 1)
  (if up then quotient + 1 else quotient) * unit

/-- Numbers from here on round to no double. -/
def doubleLimit : Nat := 1 <<< 1024 - 1 <<< 970

/-- Whether `significand * 10 ^ exponent` is a double, each factor being rounded to one. -/
def isFinite (significand : Nat) (exponent : Int) : Bool :=
  significand == 0 || exponent < 0
    || (exponent ≤ 308 && toDouble significand * toDouble (Nat.pow 10 exponent.toNat) < doubleLimit)

/-- Ends a number that is no count. -/
def finish (significand : Nat) (exponent : Int) (rest : List UInt8) :
    Except Mishap (Number × List UInt8) :=
  if isFinite significand exponent then .ok (.other, rest) else .error .badSyntax

def isExponentMark (b : UInt8) : Bool :=
  spells 'e' b || spells 'E' b

def takeSign : List UInt8 → Bool × List UInt8
  | [] => (false, [])
  | b :: r =>
    if spells '-' b then (true, r)
    else if spells '+' b then (false, r)
    else (false, b :: r)

def readExponent (significand : Nat) (shift : Int) (s : List UInt8) :
    Except Mishap (Number × List UInt8) :=
  let (negative, s) := takeSign s
  match s with
  | [] => .error .ended
  | b :: r =>
    if isDigit b then
      let exponent : Nat := ((b :: r).takeWhile isDigit).foldl (fun n d => n * 10 + digitValue d) 0
      finish significand (if negative then shift - exponent else shift + exponent)
        (r.dropWhile isDigit)
    else .error .badSyntax

def readFraction (significand : Nat) (shift : Int) (s : List UInt8) :
    Except Mishap (Number × List UInt8) :=
  let digits := s.takeWhile isDigit
  if digits.isEmpty then .error (if s.isEmpty then .ended else .badSyntax)
  else
    let (significand, left) := absorb significand digits
    let shift := shift - ((digits.length - left.length : Nat) : Int)
    match s.dropWhile isDigit with
    | b :: r => if isExponentMark b then readExponent significand shift r
      else finish significand shift (b :: r)
    | [] => finish significand shift []

/-- Reads what follows the whole part of a number; `dropped` of its digits did not fit. -/
def readTail (negative : Bool) (significand dropped : Nat) (s : List UInt8) :
    Except Mishap (Number × List UInt8) :=
  let plain : Except Mishap (Number × List UInt8) :=
    if !negative && dropped == 0 then .ok (.count significand, s)
    else finish significand dropped s
  match s with
  | [] => plain
  | b :: r =>
    if spells '.' b then readFraction significand dropped r
    else if isExponentMark b then readExponent significand dropped r
    else plain

/-- Reads an unsigned number. A zero in front stands alone. -/
def readUnsigned (negative : Bool) : List UInt8 → Except Mishap (Number × List UInt8)
  | [] => .error .ended
  | b :: r =>
    if spells '0' b then
      if r.head?.any isDigit then .error .badSyntax else readTail negative 0 0 r
    else if isDigit b then
      let (significand, left) := absorb 0 ((b :: r).takeWhile isDigit)
      readTail negative significand left.length (r.dropWhile isDigit)
    else .error .badSyntax

def readNumber : List UInt8 → Except Mishap (Number × List UInt8)
  | [] => .error .ended
  | b :: r => if spells '-' b then readUnsigned true r else readUnsigned false (b :: r)

theorem length_dropWhile_le (p : UInt8 → Bool) (s : List UInt8) :
    (s.dropWhile p).length ≤ s.length :=
  (List.dropWhile_suffix _).length_le

theorem length_takeSign_le (s : List UInt8) : (takeSign s).2.length ≤ s.length := by
  unfold takeSign
  grind

theorem length_finish {significand : Nat} {exponent : Int} {s rest : List UInt8} {n : Number}
    (h : finish significand exponent s = .ok (n, rest)) : rest = s := by
  unfold finish at h
  split at h <;> cases h
  rfl

theorem length_readExponent {significand : Nat} {shift : Int} {s rest : List UInt8} {n : Number}
    (h : readExponent significand shift s = .ok (n, rest)) : rest.length ≤ s.length := by
  unfold readExponent at h
  have sign := length_takeSign_le s
  generalize takeSign s = signed at h sign
  obtain ⟨negative, signed⟩ := signed
  dsimp only at h sign
  split at h
  · cases h
  next b r =>
    have := length_dropWhile_le isDigit r
    split at h
    · have := length_finish h; grind
    · cases h

theorem length_readFraction {significand : Nat} {shift : Int} {s rest : List UInt8} {n : Number}
    (h : readFraction significand shift s = .ok (n, rest)) : rest.length ≤ s.length := by
  unfold readFraction at h
  have := length_dropWhile_le isDigit s
  dsimp only at h
  split at h
  · cases h
  · split at h
    next b r hd =>
      rw [hd] at this
      split at h
      · have := length_readExponent h; grind
      · have := length_finish h; grind
    · have := length_finish h; grind

theorem length_readTail {negative : Bool} {significand dropped : Nat} {s rest : List UInt8}
    {n : Number} (h : readTail negative significand dropped s = .ok (n, rest)) :
    rest.length ≤ s.length := by
  unfold readTail at h
  have plain : (if !negative && dropped == 0 then .ok (.count significand, s)
      else finish significand dropped s) = Except.ok (n, rest) → rest.length ≤ s.length := by
    intro h
    split at h
    · cases h; exact Nat.le_refl _
    · have := length_finish h; grind
  dsimp only at h
  split at h
  · exact plain h
  · split at h
    · have := length_readFraction h; grind
    split at h
    · have := length_readExponent h; grind
    · exact plain h

theorem length_readUnsigned {negative : Bool} {s rest : List UInt8} {n : Number}
    (h : readUnsigned negative s = .ok (n, rest)) : rest.length < s.length := by
  unfold readUnsigned at h
  split at h
  · cases h
  next b r =>
    have := length_dropWhile_le isDigit r
    split at h
    · split at h
      · cases h
      · have := length_readTail h; grind
    · split at h
      · have := length_readTail h; grind
      · cases h

theorem length_readNumber {s rest : List UInt8} {n : Number} (h : readNumber s = .ok (n, rest)) :
    rest.length < s.length := by
  unfold readNumber at h
  split at h
  · cases h
  · split at h
    · exact Nat.lt_succ_of_lt (length_readUnsigned h)
    · exact length_readUnsigned h

def skipExponent : List UInt8 → Except Mishap (List UInt8)
  | [] => .ok []
  | b :: r =>
    if isExponentMark b then
      match (takeSign r).2 with
      | [] => .error .badSyntax
      | d :: r => if isDigit d then .ok (r.dropWhile isDigit) else .error .badSyntax
    else .ok (b :: r)

def skipFraction : List UInt8 → Except Mishap (List UInt8)
  | [] => .ok []
  | b :: r =>
    if spells '.' b then
      if r.head?.any isDigit then skipExponent (r.dropWhile isDigit) else .error .badSyntax
    else skipExponent (b :: r)

def skipUnsigned : List UInt8 → Except Mishap (List UInt8)
  | [] => .error .badSyntax
  | b :: r =>
    if spells '0' b then
      if r.head?.any isDigit then .error .badSyntax else skipFraction r
    else if isDigit b then skipFraction (r.dropWhile isDigit)
    else .error .badSyntax

def skipNumber : List UInt8 → Except Mishap (List UInt8)
  | [] => .error .badSyntax
  | b :: r => if spells '-' b then skipUnsigned r else skipUnsigned (b :: r)

end NativeBridge.Json
