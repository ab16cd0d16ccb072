import NativeBridge.Descriptor
import NativeBridge.Fault
import NativeBridge.Text.Utf8

/-! # Reading descriptors

A descriptor is read from left to right, and the first thing that does not fit is reported with
its offset in bytes.
-/

namespace NativeBridge

open Text

/-- What was read, the offset after it, and the characters that follow. -/
structure Step (α : Type) where
  read : α
  offset : Nat
  rest : List Char

namespace FieldType

def read (offset : Nat) : List Char → Except SignatureDefect (Step FieldType)
  | [] => .error .noElement
  | c :: r =>
    if c = '[' then
      (read (offset + 1) r).map fun element => { element with read := .array element.read }
    else if c = 'L' then
      let className := r.takeWhile (· != ';')
      match r.dropWhile (· != ';') with
      | [] => .error .unclosedClass
      | _ :: rest =>
        if className.isEmpty then .error (.emptyClass offset)
        else .ok ⟨.object className, offset + byteLength className + 2, rest⟩
    else if c = 'V' then .error (.voidField offset)
    else match Primitive.ofLetter? c with
      | some p => .ok ⟨.primitive p, offset + 1, r⟩
      | none => .error (.unexpected (Char.ofNat (firstByte c).toNat) offset)

theorem length_rest_lt {offset : Nat} {cs : List Char} {step : Step FieldType}
    (h : read offset cs = .ok step) : step.rest.length < cs.length := by
  induction cs generalizing offset step with
  | nil => cases h
  | cons c r ih =>
    unfold read at h
    split at h
    · cases hr : read (offset + 1) r with
      | error e => rw [hr] at h; cases h
      | ok element =>
        rw [hr] at h
        cases h
        exact Nat.lt_succ_of_lt (@ih _ element hr)
    split at h
    · have shorter := (List.dropWhile_suffix (l := r) (· != ';')).length_le
      split at h
      · cases h
      next rest hd =>
        rw [hd] at shorter
        dsimp only at h
        split at h
        · cases h
        · cases h
          simp only [List.length_cons] at shorter ⊢
          omega
    split at h
    · cases h
    split at h
    · cases h; exact Nat.lt_succ_self _
    · cases h

end FieldType

namespace Descriptor

def readParameters (offset : Nat) (cs : List Char) :
    Except SignatureDefect (Step (List FieldType)) :=
  match cs with
  | [] => .error .unclosed
  | c :: r =>
    if c = ')' then .ok ⟨[], offset + 1, r⟩
    else match h : FieldType.read offset (c :: r) with
      | .error defect => .error defect
      | .ok first =>
        have := FieldType.length_rest_lt h
        (readParameters first.offset first.rest).map fun others =>
          { others with read := first.read :: others.read }
termination_by cs.length
decreasing_by exact this

def readResult (offset : Nat) : List Char → Except SignatureDefect (Step (Option FieldType))
  | [] => .error .noReturn
  | c :: r =>
    if c = 'V' then .ok ⟨none, offset + 1, r⟩
    else (FieldType.read offset (c :: r)).map fun step => { step with read := some step.read }

def read : List Char → Except SignatureDefect Descriptor
  | [] => .error .unopened
  | c :: r => do
    if c ≠ '(' then .error .unopened else
    let parameters ← readParameters 1 r
    let result ← readResult parameters.offset parameters.rest
    if result.rest.isEmpty then .ok ⟨parameters.read, result.read⟩
    else .error (.trailing result.offset)

def parse (text : String) : Except Fault Descriptor :=
  (read text.toList).mapError (.malformedSignature text)

def decode (text : String) : Except Fault Signature :=
  (parse text).map signature

end Descriptor

end NativeBridge
