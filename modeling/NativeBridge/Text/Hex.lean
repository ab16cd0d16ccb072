/-! # Hexadecimal text

Lower-case digits, without leading zeros or padded to a width.
-/

namespace NativeBridge.Text

def hex (n : Nat) : String :=
  String.ofList (Nat.toDigits 16 n)

def hexPadded (width n : Nat) : String :=
  let digits := Nat.toDigits 16 n
  String.ofList (List.replicate (width - digits.length) '0' ++ digits)

/-- The spelling of addresses and handles, such as `0x7f00`. -/
def address (a : UInt64) : String :=
  "0x" ++ hex a.toNat

example : address 0x7F00 = "0x7f00" := by decide +kernel

example : hexPadded 4 0x2C = "002c" := by decide +kernel

end NativeBridge.Text
