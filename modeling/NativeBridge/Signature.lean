import NativeBridge.Tag

/-! # Signatures

The tags of a native method's arguments, in order, and the tag of its result. The tag string of
the arguments is what a formatted call is told about them.
-/

namespace NativeBridge

structure Signature where
  args : List Tag
  ret : Tag
  deriving DecidableEq, Repr

namespace Signature

def tagString (sig : Signature) : String :=
  String.ofList (sig.args.map Tag.letter)

def text (sig : Signature) : String :=
  "(" ++ sig.tagString ++ ")" ++ sig.ret.letter.toString

/-- A native method is called with its environment and its receiver, or class, in front. -/
def native (sig : Signature) : Signature :=
  { sig with args := .pointer :: .pointer :: sig.args }

theorem toList_tagString (sig : Signature) : sig.tagString.toList = sig.args.map Tag.letter := by
  simp [tagString]

end Signature

end NativeBridge
