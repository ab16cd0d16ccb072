import NativeBridge.Descriptor
import NativeBridge.Fault

/-! # Descriptors of signatures

A signature has a canonical descriptor, with `java.lang.Object` for every pointer, unless one of
its tags stands for no managed type.
-/

namespace NativeBridge.Descriptor

def objectClass : List Char := "java/lang/Object".toList

def fieldOf (tag : Tag) : Except Fault FieldType :=
  match tag with
  | .pointer => .ok (.object objectClass)
  | .int => .ok (.primitive .int)
  | .short => .ok (.primitive .short)
  | .ushort => .ok (.primitive .char)
  | .byte => .ok (.primitive .byte)
  | .ubyte => .ok (.primitive .boolean)
  | .long => .ok (.primitive .long)
  | .float => .ok (.primitive .float)
  | .double => .ok (.primitive .double)
  | .uint | .ulong | .void => .error (.unencodable tag.letter)

/-- The first tag without a managed type is reported. -/
def ofSignature (sig : Signature) : Except Fault Descriptor := do
  let parameters ← sig.args.mapM fieldOf
  match sig.ret with
  | .void => .ok ⟨parameters, none⟩
  | ret => (fieldOf ret).map fun result => ⟨parameters, some result⟩

def encode (sig : Signature) : Except Fault String :=
  (ofSignature sig).map text

theorem tag_of_fieldOf {tag : Tag} {f : FieldType} (h : fieldOf tag = .ok f) : f.tag = tag := by
  cases tag <;> cases h <;> rfl

end NativeBridge.Descriptor
