import NativeBridge.Json.Value

/-! # Records in JSON texts

A record is written as an object with its fields in any order, or as a list of their values in the
order of declaration. Fields of other names are passed over.
-/

namespace NativeBridge.Json

structure Field (δ : Type) where
  name : String
  isFilled : δ → Bool
  fill : δ → Reader δ

variable {δ ρ : Type}

/-- Reads one key and its value. A field that is filled already is not read again. -/
def readMember (fields : List (Field δ)) (draft : δ) : Reader δ :=
  Reader.key.andThen fun name =>
    match fields.find? (·.name == name) with
    | some field =>
      if field.isFilled draft then .fail .badData
      else (mark ':').andThen fun _ => field.fill draft
    | none => (mark ':').andThen fun _ => Reader.skipped.map fun _ => draft

def readInOrder (fields : List (Field δ)) (isFirst : Bool) (draft : δ) (s : List UInt8) :
    Except Mishap (δ × List UInt8) :=
  match fields with
  | [] => ((mark ']').map fun _ => draft).run s
  | field :: others => match skipBlanks s with
    | [] => .error .ended
    | b :: r =>
      if spells ']' b then .ok (draft, r)
      else if isFirst || spells ',' b then
        match (field.fill draft).run (if isFirst then b :: r else r) with
        | .error mishap => .error mishap
        | .ok (draft, rest) => readInOrder others false draft rest
      else .error .badSyntax

theorem length_readInOrder {fields : List (Field δ)} {isFirst : Bool} {draft final : δ}
    {s rest : List UInt8} (h : readInOrder fields isFirst draft s = .ok (final, rest)) :
    rest.length < s.length := by
  induction fields generalizing isFirst draft s with
  | nil => exact ((mark ']').map _).shorter h
  | cons field others ih =>
    unfold readInOrder at h
    split at h
    · cases h
    next b r hs =>
      have := length_lt_of_skipBlanks hs
      split at h
      · cases h; assumption
      split at h
      · split at h
        · cases h
        next hf =>
          have := (field.fill draft).shorter hf
          have := ih h
          grind
      · cases h

/-- Reads a record; `finished?` makes it from the draft, if every field that has to be is filled. -/
def Reader.record (fields : List (Field δ)) (draft : δ) (finished? : δ → Option ρ) : Reader ρ :=
  (ofHead (fun b r =>
      if spells '{' b then readItems '}' (readMember fields) true draft r
      else if spells '[' b then readInOrder fields true draft r
      else .error (wrongKind b r))
    fun h => by
      split at h
      · exact Nat.le_of_lt (length_readItems h)
      split at h
      · exact Nat.le_of_lt (length_readInOrder h)
      · cases h).filterMap finished?

end NativeBridge.Json
