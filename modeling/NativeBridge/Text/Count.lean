/-! # Counts as decimal text

A count is written with decimal digits, after a plus sign if one likes, and fits in 64 bits.
-/

namespace NativeBridge.Text

/-- The first thing that keeps a text from being a count. -/
inductive CountFault
  | empty
  | invalidDigit
  | tooLarge
  deriving DecidableEq, Repr

def CountFault.message : CountFault → String
  | .empty => "cannot parse integer from empty string"
  | .invalidDigit => "invalid digit found in string"
  | .tooLarge => "number too large to fit in target type"

def countLimit : Nat := UInt64.size

def countFrom (value : Nat) : List Char → Except CountFault Nat
  | [] => .ok value
  | c :: r =>
    if c.isDigit then
      let longer := value * 10 + (c.toNat - '0'.toNat)
      if longer < countLimit then countFrom longer r else .error .tooLarge
    else .error .invalidDigit

def countDigits (s : String) : Except CountFault (List Char) :=
  match s.toList with
  | [] => .error .empty
  | ['+'] => .error .invalidDigit
  | '+' :: digits => .ok digits
  | digits => .ok digits

def count (s : String) : Except CountFault UInt64 := do
  let digits ← countDigits s
  return UInt64.ofNat (← countFrom 0 digits)

example : (count "+12" matches .ok 12) ∧ (count "1_2" matches .error .invalidDigit) := by
  decide +kernel

end NativeBridge.Text
