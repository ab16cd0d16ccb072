import NativeBridge.Fault
import NativeBridge.Symbol
import NativeBridge.Text.Pieces
import NativeBridge.Text.Utf8

/-! # Spelling symbol names

A method has a symbol name when its segments are letters, digits and underscores that do not begin
with a digit, which would read back as an escape.
-/

namespace NativeBridge.Symbol

open Text

/-- Letters and digits stand for themselves in a symbol name. -/
def nameGlyph? (c : Char) : Option Glyph :=
  if c = '_' then some .underscore
  else if c.isAlphanum then some (.plain c)
  else none

def parameterGlyph? (c : Char) : Option Glyph :=
  match c with
  | '/' => some .separator
  | ';' => some .semicolon
  | '[' => some .bracket
  | c => nameGlyph? c

def spell (glyph? : Char → Option Glyph) (cs : List Char) : Except SymbolDefect (List Glyph) :=
  cs.mapM fun c => match glyph? c with
    | some g => .ok g
    | none => .error (.unspellable c)

def spellSegment (segment : List Char) : Except SymbolDefect (List Glyph) :=
  match segment with
  | [] => .error .emptySegment
  | first :: _ =>
    if first.isDigit then .error (.leadingDigit (String.ofList segment))
    else spell nameGlyph? segment

def unwrap? : List Char → Option (List Char)
  | '(' :: r => if r.getLast? = some ')' then some r.dropLast else none
  | _ => none

def spellParameters (id : MethodId) : Except Fault (List Glyph) :=
  match id.parameters with
  | none => .ok []
  | some parameters => match unwrap? parameters.toList with
    | none => .error (.malformedSymbol id.methodName .unwrapped)
    | some inner => ((spell parameterGlyph? inner).map (.boundary :: ·)).mapError
        (.malformedSymbol (String.ofList inner))

def glyphs (id : MethodId) : Except Fault (List Glyph) := do
  let inName : SymbolDefect → Fault := .malformedSymbol (id.className ++ "." ++ id.methodName)
  let segments ← ((pieces (· == '/') id.className.toList).mapM spellSegment).mapError inName
  let name ← (spellSegment id.methodName.toList).mapError inName
  let parameters ← spellParameters id
  return join .separator (segments ++ [name]) ++ parameters

def mangle (id : MethodId) : Except Fault String := do
  let body := Glyph.toChars (← glyphs id)
  if maxLength ≤ byteLength body then .error (.nameTooLong (byteLength body) maxLength)
  else .ok (String.ofList (namePrefix.toList ++ body))

end NativeBridge.Symbol
