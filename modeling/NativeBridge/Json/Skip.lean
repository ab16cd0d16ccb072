import NativeBridge.Json.Literal
import NativeBridge.Json.Number

/-! # Passing over JSON values

A value nobody asked for is passed over by a pushdown automaton, so that brackets may nest to any
depth.
-/

namespace NativeBridge.Json

inductive Bracket
  | list
  | object
  deriving DecidableEq, Repr

/-- What the automaton looks for next. -/
inductive Awaited
  | value
  /-- A value, or the end of a list just opened. -/
  | item
  /-- A key, or the end of an object just opened. -/
  | member
  | key
  | colon
  /-- A comma, or the end of the innermost bracket. -/
  | more
  deriving DecidableEq, Repr

def skipScalar (b : UInt8) (r : List UInt8) : Except Mishap (List UInt8) :=
  if spells 'n' b then expect ['u', 'l', 'l'] r
  else if spells 't' b then expect ['r', 'u', 'e'] r
  else if spells 'f' b then expect ['a', 'l', 's', 'e'] r
  else if spells '-' b || isDigit b then skipNumber (b :: r)
  else if spells '"' b then skipLiteral r
  else .error .badSyntax

def skipOpening (stack : List Bracket) (b : UInt8) (r : List UInt8) :
    Except Mishap (Awaited × List Bracket × List UInt8) :=
  if spells '[' b then .ok (.item, .list :: stack, r)
  else if spells '{' b then .ok (.member, .object :: stack, r)
  else (skipScalar b r).map fun rest => (.more, stack, rest)

/-- One step over the byte `b`, which is not blank, and what belongs to it. -/
def skipStep (awaited : Awaited) (stack : List Bracket) (b : UInt8) (r : List UInt8) :
    Except Mishap (Awaited × List Bracket × List UInt8) :=
  match awaited with
  | .value => skipOpening stack b r
  | .item => if spells ']' b then .ok (.more, stack.tail, r) else skipOpening stack b r
  | .member =>
    if spells '}' b then .ok (.more, stack.tail, r)
    else if spells '"' b then (skipLiteral r).map fun rest => (.colon, stack, rest)
    else .error .badSyntax
  | .key =>
    if spells '"' b then (skipLiteral r).map fun rest => (.colon, stack, rest)
    else .error .badSyntax
  | .colon => if spells ':' b then .ok (.value, stack, r) else .error .badSyntax
  | .more => match stack with
    | [] => .error .badSyntax
    | .list :: outer =>
      if spells ',' b then .ok (.value, stack, r)
      else if spells ']' b then .ok (.more, outer, r)
      else .error .badSyntax
    | .object :: outer =>
      if spells ',' b then .ok (.key, stack, r)
      else if spells '}' b then .ok (.more, outer, r)
      else .error .badSyntax

theorem length_skipLiteral {s rest : List UInt8} (h : skipLiteral s = .ok rest) :
    rest.length ≤ s.length := by
  fun_induction skipLiteral s <;> grind

theorem length_skipExponent {s rest : List UInt8} (h : skipExponent s = .ok rest) :
    rest.length ≤ s.length := by
  unfold skipExponent at h
  split at h
  · grind
  next b r =>
    have := length_takeSign_le r
    split at h
    · split at h
      · cases h
      next d r' hs =>
        have := length_dropWhile_le isDigit r'
        grind
    · grind

theorem length_skipFraction {s rest : List UInt8} (h : skipFraction s = .ok rest) :
    rest.length ≤ s.length := by
  unfold skipFraction at h
  split at h
  · grind
  next b r =>
    have := length_dropWhile_le isDigit r
    split at h
    · split at h
      · have := length_skipExponent h; grind
      · cases h
    · exact length_skipExponent h

theorem length_skipUnsigned {s rest : List UInt8} (h : skipUnsigned s = .ok rest) :
    rest.length < s.length := by
  unfold skipUnsigned at h
  split at h
  · cases h
  next b r =>
    have := length_dropWhile_le isDigit r
    split at h
    · split at h
      · cases h
      · have := length_skipFraction h; grind
    · split at h
      · have := length_skipFraction h; grind
      · cases h

theorem length_skipNumber {s rest : List UInt8} (h : skipNumber s = .ok rest) :
    rest.length < s.length := by
  unfold skipNumber at h
  split at h
  · cases h
  · split at h
    · exact Nat.lt_succ_of_lt (length_skipUnsigned h)
    · exact length_skipUnsigned h

theorem length_skipScalar {b : UInt8} {r rest : List UInt8} (h : skipScalar b r = .ok rest) :
    rest.length ≤ r.length := by
  unfold skipScalar at h
  split at h
  · have := length_expect h; omega
  split at h
  · have := length_expect h; omega
  split at h
  · have := length_expect h; omega
  split at h
  · have := length_skipNumber h; grind
  split at h
  · exact length_skipLiteral h
  · cases h

theorem length_skipStep {awaited next : Awaited} {stack after : List Bracket} {b : UInt8}
    {r rest : List UInt8} (h : skipStep awaited stack b r = .ok (next, after, rest)) :
    rest.length ≤ r.length := by
  have literal : ∀ {f : List UInt8 → Awaited × List Bracket × List UInt8},
      (∀ s, (f s).2.2 = s) → (skipLiteral r).map f = .ok (next, after, rest) →
      rest.length ≤ r.length := by
    intro f hf h
    cases hl : skipLiteral r with
    | error e => rw [hl] at h; cases h
    | ok s =>
      rw [hl] at h
      have : f s = (next, after, rest) := Except.ok.inj h
      have hs : rest = s := by simpa [this] using hf s
      exact hs ▸ length_skipLiteral hl
  have opening : skipOpening stack b r = .ok (next, after, rest) → rest.length ≤ r.length := by
    intro h
    unfold skipOpening at h
    split at h
    · cases h; exact Nat.le_refl _
    split at h
    · cases h; exact Nat.le_refl _
    · cases hl : skipScalar b r with
      | error e => rw [hl] at h; cases h
      | ok s => rw [hl] at h; cases h; exact length_skipScalar hl
  unfold skipStep at h
  cases awaited with
  | value => exact opening h
  | item =>
    dsimp only at h
    split at h
    · cases h; exact Nat.le_refl _
    · exact opening h
  | member =>
    dsimp only at h
    split at h
    · cases h; exact Nat.le_refl _
    split at h
    · exact literal (fun _ => rfl) h
    · cases h
  | key =>
    dsimp only at h
    split at h
    · exact literal (fun _ => rfl) h
    · cases h
  | colon =>
    dsimp only at h
    split at h
    · cases h; exact Nat.le_refl _
    · cases h
  | more =>
    dsimp only at h
    split at h
    · cases h
    all_goals
      split at h
      · cases h; exact Nat.le_refl _
      split at h
      · cases h; exact Nat.le_refl _
      · cases h

def skip (awaited : Awaited) (stack : List Bracket) (s : List UInt8) :
    Except Mishap (List UInt8) :=
  if awaited = .more ∧ stack = [] then .ok s
  else match hs : skipBlanks s with
    | [] => .error .ended
    | b :: r => match h : skipStep awaited stack b r with
      | .error mishap => .error mishap
      | .ok (next, after, rest) =>
        have := length_lt_of_skipBlanks hs
        have := length_skipStep h
        skip next after rest
termination_by s.length

theorem length_skip_le {awaited : Awaited} {stack : List Bracket} {s rest : List UInt8}
    (h : skip awaited stack s = .ok rest) : rest.length ≤ s.length := by
  fun_induction skip awaited stack s <;> grind

theorem length_skip_value {s rest : List UInt8} (h : skip .value [] s = .ok rest) :
    rest.length < s.length := by
  unfold skip at h
  split at h
  next hw => exact absurd hw.1 (by decide)
  split at h
  · cases h
  next b r hs =>
    split at h
    · cases h
    next hstep =>
      have := length_lt_of_skipBlanks hs
      have := length_skipStep hstep
      have := length_skip_le h
      omega

end NativeBridge.Json
