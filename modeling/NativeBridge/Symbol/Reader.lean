import NativeBridge.Fault
import NativeBridge.Symbol
import NativeBridge.Text.Pieces
import NativeBridge.Text.Utf8

/-! # Reading symbol names

The glyphs up to the boundary spell the class and the method, those after it the parameters. The
first glyph that has no meaning where it stands is reported.
-/

namespace NativeBridge.Symbol

open Text

/-- The segments of a name and the parameters spelled after it. -/
structure Spelled where
  segments : List (List Char)
  parameters : Option (List Char)
  deriving DecidableEq, Repr

def Spelled.push (c : Char) (s : Spelled) : Spelled :=
  match s.segments with
  | [] => { s with segments := [[c]] }
  | first :: others => { s with segments := (c :: first) :: others }

def Spelled.opened (s : Spelled) : Spelled :=
  { s with segments := [] :: s.segments }

/-- The character that a glyph spells among the parameters. -/
def Glyph.inParameters (offset : Nat) : Glyph → Except SymbolDefect Char
  | plain c => if c.toNat < 128 then .ok c else .error (.nonAscii (firstByte c) offset)
  | underscore => .ok '_'
  | semicolon => .ok ';'
  | bracket => .ok '['
  | separator => .ok '/'
  | unicode => .error .unicodeEscape
  | boundary => .error .secondBoundary
  | dangling => .error .dangling

def readParameters (offset : Nat) : List Glyph → Except SymbolDefect (List Char)
  | [] => .ok []
  | g :: r => do
    let c ← g.inParameters offset
    let others ← readParameters (offset + g.chars.length) r
    return c :: others

/-- Reads a name and, after the boundary, its parameters. -/
def readName (offset : Nat) : List Glyph → Except SymbolDefect Spelled
  | [] => .ok ⟨[[]], none⟩
  | .boundary :: r => (readParameters (offset + 2) r).map fun cs => ⟨[[]], some cs⟩
  | .separator :: r => (readName (offset + 1) r).map Spelled.opened
  | .plain c :: r =>
    if c.toNat < 128 then (readName (offset + 1) r).map (Spelled.push c)
    else .error (.nonAscii (firstByte c) offset)
  | .underscore :: r => (readName (offset + 2) r).map (Spelled.push '_')
  | .semicolon :: _ => .error (.misplacedEscape '2')
  | .bracket :: _ => .error (.misplacedEscape '3')
  | .unicode :: _ => .error .unicodeEscape
  | .dangling :: _ => .error .dangling

/-- The last segment names the method and the ones before it the class. -/
def Spelled.method (s : Spelled) : Except SymbolDefect MethodId :=
  match s.segments.reverse with
  | name :: segment :: segments => .ok {
      className := String.ofList (join '/' (segment :: segments).reverse)
      methodName := String.ofList name
      parameters := s.parameters.map fun cs => String.ofList ('(' :: cs ++ [')']) }
  | _ => .error .noMethod

def body? (text : String) : Option (List Char) :=
  if namePrefix.toList.isPrefixOf text.toList then
    some (text.toList.drop namePrefix.toList.length)
  else none

def demangle (text : String) : Except Fault MethodId :=
  match body? text with
  | none => .error (.malformedSymbol text .noPrefix)
  | some body =>
    if maxLength ≤ byteLength body then .error (.nameTooLong (byteLength body) maxLength)
    else (readName 0 (Glyph.ofChars body) >>= Spelled.method).mapError (.malformedSymbol text)

end NativeBridge.Symbol
