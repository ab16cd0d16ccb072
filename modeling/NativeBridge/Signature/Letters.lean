import NativeBridge.Fault

/-! # Signatures from letters

Every letter of the compact form stands for a tag, and no argument is void. Reading the letters of
a signature without void arguments gives it back.
-/

namespace NativeBridge.Signature

def ofTags (args : List Tag) (ret : Tag) : Except Fault Signature :=
  if Tag.void ∈ args then
    .error (.malformedSignature (String.ofList (args.map Tag.letter)) .voidArgument)
  else .ok ⟨args, ret⟩

def ofLetters (args : String) (ret : Char) : Except Fault Signature := do
  let tags ← args.toList.mapM fun c =>
    match Tag.ofLetter? c with
    | some tag => .ok tag
    | none => .error (.malformedSignature args (.unknownTag c))
  match Tag.ofLetter? ret with
  | some tag => ofTags tags tag
  | none => .error (.malformedSignature args (.unknownReturnTag ret))

theorem ofTags_eq_ok_iff {args : List Tag} {ret : Tag} {sig : Signature} :
    ofTags args ret = .ok sig ↔ .void ∉ args ∧ sig = ⟨args, ret⟩ := by
  unfold ofTags
  split <;> simp_all [eq_comm]

theorem mapM_ofLetter_map_letter {ε : Type} (tags : List Tag) (miss : Char → ε) :
    (tags.map Tag.letter).mapM (fun c => match Tag.ofLetter? c with
      | some tag => Except.ok tag
      | none => .error (miss c)) = .ok tags := by
  induction tags with
  | nil => rfl
  | cons t ts ih =>
    simp only [List.map_cons, List.mapM_cons, Tag.ofLetter?_letter, ih]
    rfl

theorem ofLetters_tagString {sig : Signature} (h : .void ∉ sig.args) :
    ofLetters sig.tagString sig.ret.letter = .ok sig := by
  unfold ofLetters
  rw [toList_tagString, mapM_ofLetter_map_letter, Tag.ofLetter?_letter]
  exact ofTags_eq_ok_iff.2 ⟨h, rfl⟩

end NativeBridge.Signature
