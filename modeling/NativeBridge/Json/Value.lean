import NativeBridge.Json.Skip

/-! # Readers of typed values

Each reader asks for one kind of value. When another kind begins, a mishap inside that value comes
before the complaint about its kind.
-/

namespace NativeBridge.Json

namespace Reader

variable {α β : Type}

def ofHead (f : UInt8 → List UInt8 → Except Mishap (α × List UInt8))
    (h : ∀ {b r a rest}, f b r = .ok (a, rest) → rest.length ≤ r.length) : Reader α where
  run s := match skipBlanks s with
    | [] => .error .ended
    | b :: r => f b r
  shorter {s a rest} hs := by
    split at hs
    · cases hs
    next heq => exact Nat.lt_of_le_of_lt (h hs) (length_lt_of_skipBlanks heq)

def fail (mishap : Mishap) : Reader α where
  run _ := .error mishap
  shorter h := by cases h

def andThen (first : Reader α) (next : α → Reader β) : Reader β where
  run s := match first.run s with
    | .error mishap => .error mishap
    | .ok (a, rest) => (next a).run rest
  shorter {s b rest} h := by
    split at h
    · cases h
    next heq => exact Nat.lt_trans ((next _).shorter h) (first.shorter heq)

def filterMap (f : α → Option β) (r : Reader α) : Reader β where
  run s := match r.run s with
    | .error mishap => .error mishap
    | .ok (a, rest) => match f a with
      | some b => .ok (b, rest)
      | none => .error .badData
  shorter {s b rest} h := by
    split at h
    · cases h
    next heq =>
      split at h
      · cases h; exact r.shorter heq
      · cases h

def map (f : α → β) (r : Reader α) : Reader β :=
  r.filterMap (some ∘ f)

end Reader

def wrongKind (b : UInt8) (r : List UInt8) : Mishap :=
  let after {α : Type} : Except Mishap α → Mishap
    | .error mishap => mishap
    | .ok _ => .badData
  if spells 'n' b then after (expect ['u', 'l', 'l'] r)
  else if spells 't' b then after (expect ['r', 'u', 'e'] r)
  else if spells 'f' b then after (expect ['a', 'l', 's', 'e'] r)
  else if spells '-' b || isDigit b then after (readNumber (b :: r))
  else if spells '"' b then after (readLiteral r)
  else if spells '[' b || spells '{' b then .badData
  else .badSyntax

theorem length_readBytes {s bytes rest : List UInt8} (h : readBytes s = .ok (bytes, rest)) :
    rest.length ≤ s.length := by
  fun_induction readBytes s generalizing bytes with
  | case1 => cases h
  | case2 => cases h; exact Nat.le_succ _
  | case3 => cases h
  | case4 b r _ _ c after _ lt ih =>
    cases hr : readBytes after with
    | error e => rw [hr] at h; cases h
    | ok p =>
      rw [hr] at h
      cases h
      have := ih (show readBytes after = .ok (p.1, p.2) from hr)
      grind
  | case5 => cases h
  | case6 b r _ _ _ ih =>
    cases hr : readBytes r with
    | error e => rw [hr] at h; cases h
    | ok p =>
      rw [hr] at h
      cases h
      exact Nat.le_succ_of_le (ih (show readBytes r = .ok (p.1, p.2) from hr))

theorem length_readLiteral {s rest : List UInt8} {text : String}
    (h : readLiteral s = .ok (text, rest)) : rest.length ≤ s.length := by
  unfold readLiteral at h
  cases hb : readBytes s with
  | error e => rw [hb] at h; cases h
  | ok p =>
    rw [hb] at h
    simp only [bind, Except.bind] at h
    split at h
    · cases h; exact length_readBytes (show readBytes s = .ok (p.1, p.2) from hb)
    · cases h

def mark (c : Char) : Reader Unit :=
  .ofHead (fun b r => if spells c b then .ok ((), r) else .error .badSyntax) fun h => by
    split at h <;> cases h
    exact Nat.le_refl _

def word {α : Type} (letters : List Char) (a : α) (r : List UInt8) :
    Except Mishap (α × List UInt8) :=
  (expect letters r).map fun rest => (a, rest)

theorem length_word {α : Type} {letters : List Char} {a b : α} {r rest : List UInt8}
    (h : word letters a r = .ok (b, rest)) : rest.length ≤ r.length := by
  unfold word at h
  cases he : expect letters r with
  | error e => rw [he] at h; cases h
  | ok s =>
    rw [he] at h
    cases h
    have := length_expect he
    omega

namespace Reader

def text : Reader String :=
  ofHead (fun b r => if spells '"' b then readLiteral r else .error (wrongKind b r)) fun h => by
    split at h
    · exact length_readLiteral h
    · cases h

def key : Reader String :=
  ofHead (fun b r => if spells '"' b then readLiteral r else .error .badSyntax) fun h => by
    split at h
    · exact length_readLiteral h
    · cases h

def number : Reader Number :=
  ofHead (fun b r =>
      if spells '-' b || isDigit b then readNumber (b :: r) else .error (wrongKind b r))
    fun h => by
      split at h
      · exact Nat.le_of_lt_succ (length_readNumber h)
      · cases h

def count : Reader UInt64 :=
  number.filterMap fun
    | .count n => some (UInt64.ofNat n)
    | .other => none

def flag : Reader Bool :=
  ofHead (fun b r =>
      if spells 't' b then word ['r', 'u', 'e'] true r
      else if spells 'f' b then word ['a', 'l', 's', 'e'] false r
      else .error (wrongKind b r))
    fun h => by
      split at h
      · exact length_word h
      split at h
      · exact length_word h
      · cases h

def null : Reader Unit :=
  ofHead (fun b r => if spells 'n' b then word ['u', 'l', 'l'] () r else .error (wrongKind b r))
    fun h => by
      split at h
      · exact length_word h
      · cases h

def optionalText : Reader (Option String) :=
  ofHead (fun b r =>
      if spells 'n' b then word ['u', 'l', 'l'] none r else (text.map some).run (b :: r))
    fun h => by
      split at h
      · exact length_word h
      · exact Nat.le_of_lt_succ ((text.map some).shorter h)

/-- Reads the name of one of several values, alone or as the key of `null` in an object. -/
def choice {α : Type} (ofName? : String → Option α) : Reader α :=
  let name := text.filterMap ofName?
  let keyed := (key.filterMap ofName?).andThen fun a =>
    (mark ':').andThen fun _ => null.andThen fun _ => (mark '}').map fun _ => a
  ofHead (fun b r =>
      if spells '"' b then name.run (b :: r)
      else if spells '{' b then keyed.run r
      else .error .badSyntax)
    fun h => by
      split at h
      · exact Nat.le_of_lt_succ (name.shorter h)
      split at h
      · exact Nat.le_of_lt (keyed.shorter h)
      · cases h

def list {α : Type} (item : Reader α) : Reader (List α) :=
  (ofHead (fun b r =>
      if spells '[' b then
        readItems ']' (fun before => item.map (· :: before)) true [] r
      else .error (wrongKind b r))
    fun h => by
      split at h
      · exact Nat.le_of_lt (length_readItems h)
      · cases h).map List.reverse

def skipped : Reader Unit where
  run s := (skip .value [] s).map fun rest => ((), rest)
  shorter {s _ rest} h := by
    cases hs : skip .value [] s with
    | error e => rw [hs] at h; cases h
    | ok t => rw [hs] at h; cases h; exact length_skip_value hs

def whole {α : Type} (r : Reader α) (s : List UInt8) : Except Mishap α :=
  match r.run s with
  | .error mishap => .error mishap
  | .ok (a, rest) => if (skipBlanks rest).isEmpty then .ok a else .error .badSyntax

end Reader

end NativeBridge.Json
