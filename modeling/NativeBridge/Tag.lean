/-! # Type tags

One letter for each kind of value that crosses a call: its width, its signedness, and whether it
travels in an integer or a floating-point register. Letters and tags determine each other.
-/

namespace NativeBridge

inductive Tag
  | pointer
  | int
  | uint
  | short
  /-- Also a managed `char`. -/
  | ushort
  | byte
  /-- Also a managed `boolean`. -/
  | ubyte
  | long
  | ulong
  | float
  | double
  | void
  deriving DecidableEq, Repr

inductive RegisterClass
  | integer
  | float
  deriving DecidableEq, Repr

namespace Tag

def all : List Tag :=
  [pointer, int, uint, short, ushort, byte, ubyte, long, ulong, float, double, void]

def letter : Tag → Char
  | pointer => 'p'
  | int => 'i'
  | uint => 'u'
  | short => 'w'
  | ushort => 'W'
  | byte => 'c'
  | ubyte => 'C'
  | long => 'I'
  | ulong => 'U'
  | float => 'f'
  | double => 'd'
  | void => 'v'

def ofLetter? (c : Char) : Option Tag :=
  all.find? (·.letter == c)

def registerClass : Tag → RegisterClass
  | float | double => .float
  | _ => .integer

/-- Whether all 64 bits of the value's slot count. -/
def isWide : Tag → Bool
  | pointer | long | ulong | double => true
  | _ => false

theorem ofLetter?_letter (t : Tag) : ofLetter? t.letter = some t := by
  cases t <;> rfl

theorem ofLetter?_eq_some_iff {c : Char} {t : Tag} : ofLetter? c = some t ↔ t.letter = c := by
  constructor
  · intro h; simpa using List.find?_some h
  · rintro rfl; exact ofLetter?_letter t

end Tag

end NativeBridge
