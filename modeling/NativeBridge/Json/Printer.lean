import NativeBridge.Text.Hex

/-! # Printing JSON texts

Values are printed over several lines with two spaces for each level. Quotes, backslashes and
control characters are escaped, and all else stands as it is.
-/

namespace NativeBridge.Json

def printChar (c : Char) : List Char :=
  match c with
  | '"' => ['\\', '"']
  | '\\' => ['\\', '\\']
  | '\x08' => ['\\', 'b']
  | '\x0c' => ['\\', 'f']
  | '\n' => ['\\', 'n']
  | '\r' => ['\\', 'r']
  | '\t' => ['\\', 't']
  | c => if c.toNat < 32 then '\\' :: 'u' :: (Text.hexPadded 4 c.toNat).toList else [c]

def printText (s : String) : List Char :=
  '"' :: s.toList.flatMap printChar ++ ['"']

def printCount (n : UInt64) : List Char :=
  Nat.toDigits 10 n.toNat

def printFlag (b : Bool) : List Char :=
  if b then "true".toList else "false".toList

def printOptionalText : Option String → List Char
  | some s => printText s
  | none => "null".toList

def newLine (depth : Nat) : List Char :=
  '\n' :: List.replicate (2 * depth) ' '

def printItems (depth : Nat) : List (List Char) → List Char
  | [] => []
  | [last] => newLine depth ++ last
  | first :: second :: others =>
    newLine depth ++ first ++ ',' :: printItems depth (second :: others)

/-- Prints a bracket at a depth, given its items, which are printed one level deeper. -/
def printBracket (opening closing : Char) (depth : Nat) (items : List (List Char)) : List Char :=
  match items with
  | [] => [opening, closing]
  | items => opening :: printItems (depth + 1) items ++ newLine depth ++ [closing]

def printMember (key : String) (value : List Char) : List Char :=
  printText key ++ ':' :: ' ' :: value

end NativeBridge.Json
