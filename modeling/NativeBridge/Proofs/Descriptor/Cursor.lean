import NativeBridge.Proofs.Descriptor.Grammar

/-! # Descriptors by byte offset

A descriptor can be read with a cursor into its bytes. Only to find the end of a class name is the
text cut, and at the cursor a character begins whenever that is done: no reading is lost, and each
is the one from left to right.
-/

namespace NativeBridge.Descriptor

open Checked Text

/-- A reading that cuts the text, and is lost where it cuts through a character. -/
abbrev Cutting (α : Type) := ExceptT SignatureDefect Option α

/-- The tag of the field type at the cursor, and the offset after it. Brackets before the cursor
make it an array. -/
def fieldAt (cs : List Char) (allowVoid array : Bool) (cursor : Nat) : Cutting (Tag × Nat) :=
  match _hbyte : (cs.flatMap String.utf8EncodeChar)[cursor]? with
  | none => throw .noElement
  | some byte =>
    if latin1 byte = '[' then fieldAt cs allowVoid true (cursor + 1)
    else if latin1 byte = 'L' then do
      match find? ';' (← sliceFrom? cs cursor) with
      | none => throw .unclosedClass
      | some stop =>
        if stop = 1 then throw (.emptyClass cursor) else return (.pointer, cursor + stop + 1)
    else if latin1 byte = 'V' then
      if allowVoid && !array then return (.void, cursor + 1) else throw (.voidField cursor)
    else match Primitive.ofLetter? (latin1 byte) with
      | some p => return (if array then .pointer else p.tag, cursor + 1)
      | none => throw (.unexpected (latin1 byte) cursor)
termination_by byteLength cs - cursor
decreasing_by
  have hlt : cursor < byteLength cs := (List.getElem?_eq_some_iff.mp _hbyte).1
  omega

theorem lt_of_fieldAt {cs : List Char} {allowVoid array : Bool} {cursor next : Nat} {tag : Tag}
    (h : fieldAt cs allowVoid array cursor = some (.ok (tag, next))) : cursor < next := by
  fun_induction fieldAt cs allowVoid array cursor with
  | case1 => cases h
  | case2 array cursor byte _ _ ih => exact Nat.lt_of_succ_lt (ih h)
  | case3 array cursor =>
    cases hslice : sliceFrom? cs cursor with
    | none => rw [hslice] at h; cases h
    | some slice =>
      rw [hslice] at h
      change (match find? ';' slice with | none => _ | some stop => _) = _ at h
      split at h
      · cases h
      · split at h
        · cases h
        · cases h; omega
  | case4 => cases h; omega
  | case5 => cases h
  | case6 => cases h; omega
  | case7 => cases h

def argumentsAt (cs : List Char) (cursor : Nat) : Cutting (List Tag × Nat) :=
  match _hbyte : (cs.flatMap String.utf8EncodeChar)[cursor]? with
  | none => throw .unclosed
  | some byte =>
    if latin1 byte = ')' then return ([], cursor + 1)
    else match _hfield : fieldAt cs false false cursor with
      | some (.ok (tag, next)) => do
        let (tags, stop) ← argumentsAt cs next
        return (tag :: tags, stop)
      | some (.error defect) => throw defect
      | none => none
termination_by byteLength cs - cursor
decreasing_by
  have hlt : cursor < byteLength cs := (List.getElem?_eq_some_iff.mp _hbyte).1
  have hnext := lt_of_fieldAt _hfield
  omega

def resultAt (cs : List Char) (args : List Tag) (cursor : Nat) : Cutting Signature := do
  if byteLength cs ≤ cursor then throw .noReturn else
  let (ret, stop) ← fieldAt cs true false cursor
  if stop ≠ byteLength cs then throw (.trailing stop) else
  return ⟨args, ret⟩

def decodeAt (cs : List Char) : Cutting Signature := do
  if (cs.flatMap String.utf8EncodeChar)[0]?.map latin1 ≠ some '(' then throw .unopened else
  let (args, cursor) ← argumentsAt cs 1
  resultAt cs args cursor

theorem ofLetter?_latin1 (c : Char) :
    Primitive.ofLetter? (latin1 (firstByte c)) = Primitive.ofLetter? c := by
  ext p
  obtain ⟨-, -, -, -, hascii⟩ := p.letter_plain
  rw [Primitive.ofLetter?_eq_some_iff, Primitive.ofLetter?_eq_some_iff, eq_comm,
    latin1_firstByte_eq_iff hascii, eq_comm]

/-- The class name of an object ends at the first semicolon after its letter. -/
theorem find?_semicolon (r : List Char) : find? ';' ('L' :: r) =
    if r.dropWhile (· != ';') = [] then none
    else some (byteLength (r.takeWhile (· != ';')) + 1) := by
  have hmem : ';' ∈ 'L' :: r ↔ r.dropWhile (· != ';') ≠ [] := by
    simp [List.dropWhile_eq_nil_iff]
  unfold find?
  by_cases h : r.dropWhile (· != ';') = []
  · rw [if_pos h, if_neg fun hin => hmem.mp hin h]
  · rw [if_neg h, if_pos (hmem.mpr h), List.takeWhile_cons_of_pos (by decide), byteLength_cons,
      Nat.add_comm]
    rfl

theorem fieldAt_nil (before : List Char) (allowVoid array : Bool) :
    fieldAt (before ++ []) allowVoid array (byteLength before) = throw .noElement := by
  have hbyte := getElem?_bytes before []
  rw [fieldAt]
  split
  · rfl
  · next h => rw [h] at hbyte; cases hbyte

/-- At a character its first byte decides, and the text is cut right before it. -/
theorem fieldAt_cons (before : List Char) (c : Char) (r : List Char) (allowVoid array : Bool) :
    fieldAt (before ++ c :: r) allowVoid array (byteLength before) =
      if c = '[' then fieldAt (before ++ c :: r) allowVoid true (byteLength before + 1)
      else if c = 'L' then
        match find? ';' (c :: r) with
        | none => throw .unclosedClass
        | some stop =>
          if stop = 1 then throw (.emptyClass (byteLength before))
          else return (.pointer, byteLength before + stop + 1)
      else if c = 'V' then
        if allowVoid && !array then return (.void, byteLength before + 1)
        else throw (.voidField (byteLength before))
      else match Primitive.ofLetter? c with
        | some p => return (if array then .pointer else p.tag, byteLength before + 1)
        | none => throw (.unexpected (latin1 (firstByte c)) (byteLength before)) := by
  have hbyte := getElem?_bytes before (c :: r)
  have hslice : sliceFrom? (before ++ c :: r) (byteLength before) = some (c :: r) :=
    sliceFrom?_eq_some_iff.mpr ⟨before, rfl, rfl⟩
  rw [fieldAt]
  split
  · next h => rw [h] at hbyte; cases hbyte
  next byte h =>
  rw [h] at hbyte
  obtain rfl := Option.some.inj hbyte
  simp only [latin1_firstByte_eq_iff (a := '[') (by decide),
    latin1_firstByte_eq_iff (a := 'L') (by decide),
    latin1_firstByte_eq_iff (a := 'V') (by decide), ofLetter?_latin1, hslice]
  rfl

/-- The cursor reads the field type that begins at it. Void is left to the caller that allows
it. -/
theorem fieldAt_append (before rest : List Char) {allowVoid array : Bool}
    (hvoid : (allowVoid && !array) = true → rest.head? ≠ some 'V') :
    fieldAt (before ++ rest) allowVoid array (byteLength before) =
      some ((FieldType.read (byteLength before) rest).map fun step =>
        (if array then .pointer else step.read.tag, step.offset)) := by
  induction rest generalizing before array with
  | nil =>
    rw [fieldAt_nil]
    rfl
  | cons c r ih =>
    rw [fieldAt_cons, FieldType.read]
    split
    · -- past the bracket, where the element is read as an array's
      next hbracket =>
      have hnext : byteLength (before ++ [c]) = byteLength before + 1 := by
        rw [hbracket, byteLength_append]
        rfl
      have hread := @ih (before ++ [c]) true (by simp)
      rw [List.append_assoc, List.singleton_append, hnext] at hread
      rw [hread]
      cases FieldType.read (byteLength before + 1) r <;> cases array <;> rfl
    split
    · next hobject =>
      rw [hobject, find?_semicolon]
      cases hdrop : r.dropWhile (· != ';') with
      | nil => rfl
      | cons semicolon rest =>
        rw [if_neg (by simp)]
        simp only [Nat.add_eq_right, byteLength_eq_zero_iff, List.isEmpty_iff]
        split
        · rfl
        · cases array <;> rfl
    split
    · next hletter =>
      rw [if_neg fun hallowed => hvoid hallowed (congrArg some hletter)]
      rfl
    · cases Primitive.ofLetter? c <;> rfl

theorem argumentsAt_nil (before : List Char) :
    argumentsAt (before ++ []) (byteLength before) = throw .unclosed := by
  have hbyte := getElem?_bytes before []
  rw [argumentsAt]
  split
  · rfl
  · next h => rw [h] at hbyte; cases hbyte

theorem argumentsAt_cons (before : List Char) (c : Char) (r : List Char) :
    argumentsAt (before ++ c :: r) (byteLength before) =
      if c = ')' then return ([], byteLength before + 1) else do
        let (tag, next) ← fieldAt (before ++ c :: r) false false (byteLength before)
        let (tags, stop) ← argumentsAt (before ++ c :: r) next
        return (tag :: tags, stop) := by
  have hbyte := getElem?_bytes before (c :: r)
  rw [argumentsAt]
  split
  · next h => rw [h] at hbyte; cases hbyte
  next byte h =>
  rw [h] at hbyte
  obtain rfl := Option.some.inj hbyte
  simp only [latin1_firstByte_eq_iff (a := ')') (by decide)]
  split
  · rfl
  · split <;> next hfield => rw [hfield]; rfl

theorem argumentsAt_append (before rest : List Char) :
    argumentsAt (before ++ rest) (byteLength before) =
      some ((readParameters (byteLength before) rest).map fun step =>
        (step.read.map FieldType.tag, step.offset)) := by
  induction hn : rest.length using Nat.strongRecOn generalizing before rest with
  | _ n ih =>
    cases rest with
    | nil =>
      rw [argumentsAt_nil, readParameters]
      rfl
    | cons c r =>
      rw [argumentsAt_cons]
      split
      · next hclose =>
        rw [hclose, readParameters_close]
        rfl
      -- what is left after the first field type is shorter
      next hne =>
      rw [readParameters_of_ne hne, fieldAt_append before (c :: r) (by simp)]
      cases hfirst : FieldType.read (byteLength before) (c :: r) with
      | error defect => rfl
      | ok first =>
        obtain ⟨-, hchars, hoffset⟩ := FieldType.read_eq_ok_iff.mp hfirst
        have hothers := ih _ (hn ▸ FieldType.length_rest_lt hfirst)
          (before ++ first.read.chars) first.rest rfl
        rw [List.append_assoc, ← hchars, byteLength_append, ← hoffset] at hothers
        change (argumentsAt (before ++ c :: r) first.offset >>= _) = _
        rw [hothers]
        change _ = some (Except.map _ (readParameters first.offset first.rest >>= _))
        cases readParameters first.offset first.rest <;> rfl

/-- Where void is allowed, the result type is read. -/
theorem fieldAt_result (before : List Char) (c : Char) (r : List Char) :
    fieldAt (before ++ c :: r) true false (byteLength before) =
      some ((readResult (byteLength before) (c :: r)).map fun step =>
        (match step.read with | some f => f.tag | none => .void, step.offset)) := by
  by_cases hvoid : c = 'V'
  · rw [hvoid, fieldAt_cons, readResult_void]
    rfl
  · rw [fieldAt_append before (c :: r) (by simpa using hvoid), readResult_of_ne hvoid]
    cases FieldType.read (byteLength before) (c :: r) <;> rfl

theorem resultAt_append (before rest : List Char) (fs : List FieldType) :
    resultAt (before ++ rest) (fs.map FieldType.tag) (byteLength before) =
      some ((do
        let result ← readResult (byteLength before) rest
        if result.rest.isEmpty then .ok ⟨fs, result.read⟩
        else .error (.trailing result.offset) : Except _ Descriptor).map signature) := by
  unfold resultAt
  cases rest with
  | nil =>
    rw [List.append_nil, if_pos le_rfl]
    rfl
  | cons c r =>
    rw [if_neg (by simp [byteLength_cons, c.utf8Size_pos.ne']), fieldAt_result]
    cases hresult : readResult (byteLength before) (c :: r) with
    | error defect => rfl
    | ok result =>
      obtain ⟨-, hchars, hoffset⟩ := readResult_eq_ok_iff.mp hresult
      have hend : result.offset = byteLength (before ++ c :: r) ↔ result.rest = [] := by
        rw [hchars, hoffset, byteLength_append, byteLength_append, ← Nat.add_assoc,
          Nat.left_eq_add, byteLength_eq_zero_iff]
      change (if result.offset ≠ byteLength (before ++ c :: r) then _ else _) =
        some (Except.map _ (if result.rest.isEmpty = true then _ else _))
      simp only [ne_eq, hend, List.isEmpty_iff]
      by_cases hrest : result.rest = []
      · rw [if_neg (not_not.mpr hrest), if_pos hrest]
        rfl
      · rw [if_pos hrest, if_neg hrest]
        rfl

/-- The cursor never cuts through a character, and reads what is read from left to right. -/
theorem decodeAt_eq (cs : List Char) : decodeAt cs = some ((read cs).map signature) := by
  cases cs with
  | nil => rfl
  | cons c r =>
    have hbyte := getElem?_bytes [] (c :: r)
    rw [List.nil_append, byteLength_nil] at hbyte
    have hhead : (some (firstByte c)).map latin1 = some '(' ↔ c = '(' := by
      rw [Option.map_some, Option.some_inj, latin1_firstByte_eq_iff (by decide)]
    rw [decodeAt, read]
    simp only [hbyte, List.head?_cons, Option.map_some, ne_eq] at hhead ⊢
    simp only [hhead]
    split
    · rfl
    next hopen =>
    obtain rfl := not_not.mp hopen
    have hargs := argumentsAt_append ['('] r
    rw [List.singleton_append, show byteLength ['('] = 1 from rfl] at hargs
    rw [hargs]
    cases hparameters : readParameters 1 r with
    | error defect => rfl
    | ok parameters =>
      obtain ⟨-, hchars, hoffset⟩ := readParameters_eq_ok_iff.mp hparameters
      have hresult := resultAt_append ('(' :: (parameters.read.flatMap FieldType.chars ++ [')']))
        parameters.rest parameters.read
      have hopened : '('.utf8Size = 1 := rfl
      have hclosed : byteLength [')'] = 1 := rfl
      rw [List.cons_append, List.append_assoc, List.singleton_append, ← hchars, byteLength_cons,
        byteLength_append, hopened, hclosed, ← Nat.add_assoc, ← hoffset] at hresult
      exact hresult

/-- The signature that the cursor reads, if the text is never cut through a character. -/
def decodeBytes (text : String) : Option (Except Fault Signature) :=
  (decodeAt text.toList).run.map (·.mapError (.malformedSignature text))

theorem decodeBytes_eq (text : String) : decodeBytes text = some (decode text) := by
  rw [decodeBytes, ExceptT.run, decodeAt_eq, decode, parse, Option.map_some]
  cases read text.toList <;> rfl

/-- The texts of readable descriptors are decoded and no others. -/
theorem decode_accepts (text : String) :
    (∀ sig, decode text = .ok sig ↔
      ∃ d : Descriptor, d.Readable ∧ d.text = text ∧ d.signature = sig) ∧
    (∀ sig, decode text = .ok sig → .void ∉ sig.args) ∧
    ((¬∃ d : Descriptor, d.Readable ∧ d.text = text) →
      ∃ defect, decode text = .error (.malformedSignature text defect)) ∧
    decodeBytes text = some (decode text) := by
  have haccepts : ∀ sig, decode text = .ok sig ↔
      ∃ d : Descriptor, d.Readable ∧ d.text = text ∧ d.signature = sig := fun sig => by
    rw [decode, map_eq_ok_iff]
    simp only [parse_eq_ok_iff, and_assoc]
  refine ⟨haccepts, fun sig h => ?_, fun hnone => ?_, decodeBytes_eq text⟩
  · obtain ⟨d, -, -, rfl⟩ := (haccepts sig).mp h
    exact d.void_not_mem_args
  · cases hread : read text.toList with
    | error defect => exact ⟨defect, by rw [decode, parse, hread]; rfl⟩
    | ok d =>
      have hparse : parse text = .ok d := by rw [parse, hread]; rfl
      exact absurd ⟨d, parse_eq_ok_iff.mp hparse⟩ hnone

end NativeBridge.Descriptor
