import NativeBridge.Call.Location
import NativeBridge.Signature
import NativeBridge.Text.Hex

/-! # Faults in names, signatures and stubs

Each way in which a descriptor, a symbol name or a stub can be refused, and its wording.
-/

namespace NativeBridge

/-- Why tags or a descriptor are no signature. Offsets count bytes. -/
inductive SignatureDefect
  | voidArgument
  | unknownTag (letter : Char)
  | unknownReturnTag (letter : Char)
  | unopened
  | unclosed
  | noReturn
  | trailing (offset : Nat)
  | noElement
  | voidField (offset : Nat)
  | unclosedClass
  | emptyClass (offset : Nat)
  /-- `first` is the Latin-1 reading of the first byte that fits nothing. -/
  | unexpected (first : Char) (offset : Nat)
  deriving DecidableEq, Repr

def SignatureDefect.message : SignatureDefect → String
  | voidArgument => "void is only valid as a return tag"
  | unknownTag letter => s!"unknown type tag '{letter}'"
  | unknownReturnTag letter => s!"unknown return tag '{letter}'"
  | unopened => "missing '('"
  | unclosed => "argument list ended before ')'"
  | noReturn => "missing return type"
  | trailing offset => s!"unexpected trailing input at offset {offset}"
  | noElement => "array descriptor ended before its element type"
  | voidField offset => s!"void is only valid as the return type (offset {offset})"
  | unclosedClass => "object descriptor is missing ';'"
  | emptyClass offset => s!"empty class name at offset {offset}"
  | unexpected first offset => s!"unexpected character '{first}' at offset {offset}"

/-- Why a text is no symbol name, or a method has none. Offsets count bytes after the prefix. -/
inductive SymbolDefect
  | noPrefix
  | nonAscii (first : UInt8) (offset : Nat)
  | dangling
  | unicodeEscape
  /-- `_2` and `_3` have no meaning in a name. -/
  | misplacedEscape (digit : Char)
  | secondBoundary
  | noMethod
  | emptySegment
  | leadingDigit (segment : String)
  | unspellable (c : Char)
  | unwrapped
  deriving DecidableEq, Repr

def SymbolDefect.message : SymbolDefect → String
  | noPrefix => "missing 'Java_' prefix"
  | nonAscii first offset => s!"non-ASCII byte 0x{Text.hexPadded 2 first.toNat} at offset {offset}"
  | dangling => "trailing '_'"
  | unicodeEscape => "unsupported '_0' escape"
  | misplacedEscape digit => s!"'_{digit}' outside the argument signature"
  | secondBoundary => "second '__' separator"
  | noMethod => "no method name boundary"
  | emptySegment => "empty name segment"
  | leadingDigit segment => s!"segment '{segment}' starts with a digit"
  | unspellable c => s!"character '{c}' needs a unicode escape"
  | unwrapped => "short signature must be '(...)'"

inductive StubDefect
  | noEnvironment (sig : Signature)
  | voidArgument (sig : Signature)
  | frameTooLarge (size outgoing : Nat)
  | immovable (tag : Tag) (source target : Location)
  | misaligned (instruction : String) (offset : Int) (unit : Nat)
  | outOfRange (instruction : String) (offset : Nat)
  | outOfPairRange (instruction : String) (offset : Int)
  | wideImmediate (instruction : String) (value limit : Nat)
  | emptyPage
  | emptyStub
  | stubTooLong (length pageSize : Nat)
  | noRoom (length remaining : Nat)
  /-- The system does not tell the size of its pages. -/
  | noPageSize (reason : String)
  deriving DecidableEq, Repr

def StubDefect.message : StubDefect → String
  | noEnvironment sig => s!"stub for {sig.text} must take the environment pointer first"
  | voidArgument sig => s!"stub for {sig.text} has a void argument"
  | frameTooLarge size outgoing =>
    s!"frame of {size} bytes with {outgoing} outgoing bytes cannot be encoded"
  | immovable tag source target =>
    s!"cannot move '{tag.letter}' from {source.text} to {target.text}"
  | misaligned instruction offset unit =>
    s!"{instruction} offset {offset} misaligned for scale {unit}"
  | outOfRange instruction offset => s!"{instruction} offset {offset} exceeds immediate range"
  | outOfPairRange instruction offset =>
    s!"{instruction} offset {offset} exceeds pair immediate range"
  | wideImmediate instruction value limit => s!"{instruction} immediate {value} exceeds {limit}"
  | emptyPage => "cannot map an empty executable page"
  | emptyStub => "empty stub"
  | stubTooLong length pageSize => s!"stub of {length} bytes exceeds the {pageSize} byte page"
  | noRoom length remaining =>
    s!"stub of {length} bytes does not fit in {remaining} remaining bytes"
  | noPageSize reason => s!"sysconf(_SC_PAGESIZE) failed: {reason}"

inductive Fault
  | malformedSignature (subject : String) (defect : SignatureDefect)
  | malformedSymbol (subject : String) (defect : SymbolDefect)
  | nameTooLong (length limit : Nat)
  | unencodable (letter : Char)
  | noStub (defect : StubDefect)
  deriving DecidableEq, Repr

def Fault.message : Fault → String
  | malformedSignature subject defect => s!"malformed signature '{subject}': {defect.message}"
  | malformedSymbol subject defect => s!"malformed symbol name '{subject}': {defect.message}"
  | nameTooLong length limit => s!"symbol name of {length} bytes exceeds the {limit} byte limit"
  | unencodable letter => s!"type tag '{letter}' has no managed descriptor"
  | noStub defect => "code generation failed: " ++ defect.message

end NativeBridge
