import NativeBridge.Signature

/-! # Method descriptors

A descriptor lists the field types of a method's parameters and its result type, as in
`(I[Ljava/lang/String;)V`. Its text is unambiguous, and its signature keeps of each field only the
tag: arrays and objects are pointers.
-/

namespace NativeBridge

inductive Primitive
  | byte
  | char
  | double
  | float
  | int
  | long
  | short
  | boolean
  deriving DecidableEq, Repr

namespace Primitive

def letter : Primitive → Char
  | byte => 'B'
  | char => 'C'
  | double => 'D'
  | float => 'F'
  | int => 'I'
  | long => 'J'
  | short => 'S'
  | boolean => 'Z'

def ofLetter? : Char → Option Primitive
  | 'B' => some byte
  | 'C' => some char
  | 'D' => some double
  | 'F' => some float
  | 'I' => some int
  | 'J' => some long
  | 'S' => some short
  | 'Z' => some boolean
  | _ => none

def tag : Primitive → Tag
  | byte => .byte
  | char => .ushort
  | double => .double
  | float => .float
  | int => .int
  | long => .long
  | short => .short
  | boolean => .ubyte

end Primitive

inductive FieldType
  | primitive (p : Primitive)
  | object (className : List Char)
  | array (element : FieldType)
  deriving DecidableEq, Repr

namespace FieldType

def chars : FieldType → List Char
  | primitive p => [p.letter]
  | object className => 'L' :: className ++ [';']
  | array element => '[' :: element.chars

/-- A class name is not empty and ends at the first semicolon. -/
def Readable : FieldType → Prop
  | primitive _ => True
  | object className => className ≠ [] ∧ ';' ∉ className
  | array element => element.Readable

def tag : FieldType → Tag
  | primitive p => p.tag
  | object _ | array _ => .pointer

theorem tag_ne_void (f : FieldType) : f.tag ≠ .void := by
  cases f with
  | primitive p => cases p <;> simp [tag, Primitive.tag]
  | object => simp [tag]
  | array => simp [tag]

end FieldType

structure Descriptor where
  parameters : List FieldType
  /-- No result type is void. -/
  result : Option FieldType
  deriving DecidableEq, Repr

namespace Descriptor

def chars (d : Descriptor) : List Char :=
  '(' :: d.parameters.flatMap FieldType.chars ++
    ')' :: (match d.result with | some f => f.chars | none => ['V'])

def text (d : Descriptor) : String :=
  String.ofList d.chars

def Readable (d : Descriptor) : Prop :=
  (∀ f ∈ d.parameters, f.Readable) ∧ ∀ f ∈ d.result, f.Readable

def signature (d : Descriptor) : Signature where
  args := d.parameters.map FieldType.tag
  ret := match d.result with | some f => f.tag | none => .void

theorem void_not_mem_args (d : Descriptor) : .void ∉ d.signature.args := by
  simp [signature, FieldType.tag_ne_void]

end Descriptor

end NativeBridge
