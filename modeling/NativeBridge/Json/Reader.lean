/-! # Readers of JSON texts

A reader takes a value off the front of a text and leaves the rest, which is shorter. The first
mishap from left to right ends the reading.
-/

namespace NativeBridge.Json

inductive Mishap
  /-- A byte that cannot stand where it stands, or a number that no double can hold. -/
  | badSyntax
  /-- The text ends within a value. -/
  | ended
  /-- A value of another kind than asked for, or a field that is missing or given twice. -/
  | badData
  deriving DecidableEq, Repr

def Mishap.message : Mishap → String
  | badSyntax => "bad syntax"
  | ended => "text ended within a value"
  | badData => "unsuitable data"

structure Reader (α : Type) where
  run : List UInt8 → Except Mishap (α × List UInt8)
  shorter : ∀ {s a rest}, run s = .ok (a, rest) → rest.length < s.length

def spells (c : Char) (b : UInt8) : Bool :=
  b == c.toUInt8

def isBlank (b : UInt8) : Bool :=
  spells ' ' b || spells '\n' b || spells '\t' b || spells '\r' b

def skipBlanks (s : List UInt8) : List UInt8 :=
  s.dropWhile isBlank

theorem length_skipBlanks_le (s : List UInt8) : (skipBlanks s).length ≤ s.length :=
  (List.dropWhile_suffix _).length_le

theorem length_lt_of_skipBlanks {s r : List UInt8} {b : UInt8} (h : skipBlanks s = b :: r) :
    r.length < s.length := by
  have := length_skipBlanks_le s
  rw [h, List.length_cons] at this
  omega

def expect : List Char → List UInt8 → Except Mishap (List UInt8)
  | [], s => .ok s
  | _ :: _, [] => .error .ended
  | c :: cs, b :: r => if spells c b then expect cs r else .error .badSyntax

theorem length_expect {cs : List Char} {s rest : List UInt8} (h : expect cs s = .ok rest) :
    s.length = cs.length + rest.length := by
  induction cs generalizing s with
  | nil => cases h; simp
  | cons c cs ih =>
    cases s with
    | nil => cases h
    | cons b r =>
      unfold expect at h
      split at h
      · simp only [List.length_cons, ih h]; omega
      · cases h

/-- Takes items off the front up to the closing bracket, with commas between them. Each item is
read with what the items before it gave. -/
def readItems {σ : Type} (close : Char) (item : σ → Reader σ) (isFirst : Bool) (state : σ)
    (s : List UInt8) : Except Mishap (σ × List UInt8) :=
  match hs : skipBlanks s with
  | [] => .error .ended
  | b :: r =>
    if spells close b then .ok (state, r)
    else if isFirst || spells ',' b then
      match hi : (item state).run (if isFirst then b :: r else r) with
      | .error mishap => .error mishap
      | .ok (state', rest) =>
        have := length_lt_of_skipBlanks hs
        have := (item state).shorter hi
        readItems close item false state' rest
    else .error .badSyntax
termination_by s.length
decreasing_by grind

theorem length_readItems {σ : Type} {close : Char} {item : σ → Reader σ} {isFirst : Bool}
    {state final : σ} {s rest : List UInt8}
    (h : readItems close item isFirst state s = .ok (final, rest)) : rest.length < s.length := by
  fun_induction readItems close item isFirst state s with
  | case1 => cases h
  | case2 isFirst state s b r hs _ => cases h; exact length_lt_of_skipBlanks hs
  | case3 => cases h
  | case4 isFirst state s b r hs _ _ state' rest' hi lt _ ih =>
    have := ih h
    have := (item _).shorter hi
    grind
  | case5 => cases h

end NativeBridge.Json
