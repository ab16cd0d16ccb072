/-! # Native methods and the glyphs of their symbol names

A symbol name spells a method's class, name and, for an overloaded method, parameter descriptor
with the prefix `Java_` and letters, digits and underscores. An underscore and what follows it
make one glyph, so every text after the prefix is a sequence of glyphs in exactly one way.
-/

namespace NativeBridge

structure MethodId where
  /-- Separated by slashes, as in `com/example/Foo`. -/
  className : String
  methodName : String
  /-- The parameters of an overloaded method in parentheses, as in `(I)`. -/
  parameters : Option String
  deriving DecidableEq, Repr

def MethodId.classDescriptor (id : MethodId) : String :=
  "L" ++ id.className ++ ";"

namespace Symbol

def namePrefix : String := "Java_"

/-- The bytes after the prefix stay below this number. -/
def maxLength : Nat := 1024

inductive Glyph
  | plain (c : Char)
  /-- `_0`, which opens the number of a character. -/
  | unicode
  /-- `_1` -/
  | underscore
  /-- `_2` -/
  | semicolon
  /-- `_3` -/
  | bracket
  /-- `__`, between a name and its parameters. -/
  | boundary
  /-- `_` before any other character, in place of a slash. -/
  | separator
  /-- `_` at the end. -/
  | dangling
  deriving DecidableEq, Repr

namespace Glyph

def chars : Glyph → List Char
  | plain c => [c]
  | unicode => ['_', '0']
  | underscore => ['_', '1']
  | semicolon => ['_', '2']
  | bracket => ['_', '3']
  | boundary => ['_', '_']
  | separator | dangling => ['_']

/-- What a character after an underscore completes. -/
def escaped? : Char → Option Glyph
  | '0' => some unicode
  | '1' => some underscore
  | '2' => some semicolon
  | '3' => some bracket
  | '_' => some boundary
  | _ => none

theorem chars_of_escaped? {e : Char} {g : Glyph} (h : escaped? e = some g) :
    g.chars = ['_', e] := by
  unfold escaped? at h
  split at h <;> cases h <;> rfl

def ofChars : List Char → List Glyph
  | [] => []
  | c :: r =>
    if c = '_' then
      match r with
      | [] => [dangling]
      | e :: after => match escaped? e with
        | some g => g :: ofChars after
        | none => separator :: ofChars (e :: after)
    else plain c :: ofChars r

def toChars (glyphs : List Glyph) : List Char :=
  glyphs.flatMap chars

theorem toChars_ofChars (cs : List Char) : toChars (ofChars cs) = cs := by
  fun_induction ofChars cs with
  | case1 => rfl
  | case2 => rfl
  | case3 e after g hg ih => simp_all [toChars, chars_of_escaped? hg]
  | case4 e after _ ih => simpa [toChars, chars] using ih
  | case5 c r hc ih => simpa [toChars, chars] using ih

end Glyph

end Symbol

end NativeBridge
