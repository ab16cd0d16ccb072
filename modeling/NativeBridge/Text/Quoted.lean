import NativeBridge.Text.Hex
import NativeBridge.Text.Printable

/-! # Quoted text

A text between double quotes, in which quotes, backslashes and unprintable characters are
escaped.
-/

namespace NativeBridge.Text

def quotedChar (c : Char) : String :=
  match c with
  | '"' => "\\\""
  | '\\' => "\\\\"
  | '\n' => "\\n"
  | '\r' => "\\r"
  | '\t' => "\\t"
  | '\x00' => "\\0"
  | c => if isPrintable c then c.toString else "\\u\x7b" ++ hex c.toNat ++ "\x7d"

def quoted (s : String) : String :=
  "\"" ++ String.join (s.toList.map quotedChar) ++ "\""

example : quoted "a\"\x01" = "\"a\\\"\\u\x7b1\x7d\"" := by decide +kernel

end NativeBridge.Text
