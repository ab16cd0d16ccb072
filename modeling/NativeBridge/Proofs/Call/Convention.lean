import NativeBridge.Call.Plan
import NativeBridge.Proofs.Checked

/-! # The calling convention

Integers travel in the first eight registers of their kind and floats in those of theirs. What
finds no register takes the next slot of eight bytes. A plan reads every argument where this
convention puts it for the caller, and passes it on where the convention puts it for a function
whose first two integers are given already. An argument that is passed on never overwrites one
that stands before it.
-/

namespace NativeBridge

/-- Whether two locations share no byte. -/
def Location.Apart : Location → Location → Prop
  | .stack a, .stack b => a + 8 ≤ b ∨ b + 8 ≤ a
  | a, b => a ≠ b

namespace Call

def integers (args : List Tag) : Nat :=
  args.countP (·.registerClass = .integer)

def floats (args : List Tag) : Nat :=
  args.countP (·.registerClass = .float)

/-- How many arguments find no register when `taken` integer registers are not theirs to use. -/
def spilled (taken : Nat) (args : List Tag) : Nat :=
  (taken + integers args - 8) + (floats args - 8)

def location (taken : Nat) (earlier : List Tag) (tag : Tag) : Location :=
  match tag.registerClass with
  | .integer =>
    if h : taken + integers earlier < 8 then .intReg ⟨taken + integers earlier, h⟩
    else .stack (8 * spilled taken earlier)
  | .float =>
    if h : floats earlier < 8 then .floatReg ⟨floats earlier, h⟩
    else .stack (8 * spilled taken earlier)

@[simp] theorem integers_append (first second : List Tag) :
    integers (first ++ second) = integers first + integers second :=
  List.countP_append

@[simp] theorem floats_append (first second : List Tag) :
    floats (first ++ second) = floats first + floats second :=
  List.countP_append

theorem integers_cons (tag : Tag) (args : List Tag) :
    integers (tag :: args) = (if tag.registerClass = .integer then 1 else 0) + integers args := by
  simp only [integers, List.countP_cons, decide_eq_true_eq]
  omega

theorem floats_cons (tag : Tag) (args : List Tag) :
    floats (tag :: args) = (if tag.registerClass = .float then 1 else 0) + floats args := by
  simp only [floats, List.countP_cons, decide_eq_true_eq]
  omega

@[simp] theorem integers_nil : integers [] = 0 := rfl

@[simp] theorem floats_nil : floats [] = 0 := rfl

theorem location_eq_intReg_iff {taken : Nat} {earlier : List Tag} {tag : Tag} {r : Fin 8} :
    location taken earlier tag = .intReg r ↔
      tag.registerClass = .integer ∧ r.val = taken + integers earlier := by
  unfold location
  cases tag.registerClass with
  | integer =>
    by_cases h : taken + integers earlier < 8
    · simp [h, Fin.ext_iff, eq_comm]
    · simp [h]; omega
  | float => by_cases h : floats earlier < 8 <;> simp [h]

theorem location_eq_floatReg_iff {taken : Nat} {earlier : List Tag} {tag : Tag} {r : Fin 8} :
    location taken earlier tag = .floatReg r ↔
      tag.registerClass = .float ∧ r.val = floats earlier := by
  unfold location
  cases tag.registerClass with
  | integer => by_cases h : taken + integers earlier < 8 <;> simp [h]
  | float =>
    by_cases h : floats earlier < 8
    · simp [h, Fin.ext_iff, eq_comm]
    · simp [h]; omega

/-- A slot is eight bytes at the number of slots before it. -/
theorem stack_slot {taken offset : Nat} {earlier : List Tag} {tag : Tag} (later : List Tag)
    (h : location taken earlier tag = .stack offset) :
    offset = 8 * spilled taken earlier ∧
      offset + 8 ≤ 8 * spilled taken (earlier ++ tag :: later) := by
  unfold location at h
  cases hc : tag.registerClass <;> simp only [hc] at h <;> split at h
  · cases h
  · obtain rfl := Location.stack.inj h
    simp only [spilled, integers_append, floats_append, integers_cons, floats_cons, hc]
    simp
    omega
  · cases h
  · obtain rfl := Location.stack.inj h
    simp only [spilled, integers_append, floats_append, integers_cons, floats_cons, hc]
    simp
    omega

theorem spilled_snoc (taken : Nat) (earlier : List Tag) (tag : Tag) :
    spilled taken (earlier ++ [tag]) =
      spilled taken earlier + if (location taken earlier tag).isStack then 1 else 0 := by
  unfold spilled location
  simp only [integers_append, floats_append, integers_cons, floats_cons, integers_nil, floats_nil]
  cases tag.registerClass with
  | integer =>
    by_cases h : taken + integers earlier < 8
    · simp [h, Location.isStack]; omega
    · simp [h, Location.isStack]; omega
  | float =>
    by_cases h : floats earlier < 8
    · simp [h, Location.isStack]; omega
    · simp [h, Location.isStack]; omega

theorem integers_add_floats (args : List Tag) : integers args + floats args = args.length := by
  induction args with
  | nil => rfl
  | cons tag args ih =>
    rw [integers_cons, floats_cons, List.length_cons]
    cases tag.registerClass <;> simp <;> omega

theorem spilled_le (taken : Nat) (args : List Tag) : spilled taken args ≤ taken + args.length := by
  have := integers_add_floats args
  unfold spilled
  omega

def lanesAfter (taken : Nat) (args : List Tag) : Lanes where
  nextInt := min 8 (taken + integers args)
  nextFloat := min 8 (floats args)
  nextStack := 8 * spilled taken args

theorem location_lanesAfter (taken : Nat) (earlier : List Tag) (tag : Tag) :
    (lanesAfter taken earlier).location tag.registerClass = location taken earlier tag := by
  unfold Lanes.location location lanesAfter
  cases tag.registerClass with
  | integer =>
    by_cases h : taken + integers earlier < 8
    · have hmin : min 8 (taken + integers earlier) = taken + integers earlier := by omega
      simp [h, hmin]
    · have hmin : min 8 (taken + integers earlier) = 8 := by omega
      simp [h, hmin]
  | float =>
    by_cases h : floats earlier < 8
    · have hmin : min 8 (floats earlier) = floats earlier := by omega
      simp [h, hmin]
    · have hmin : min 8 (floats earlier) = 8 := by omega
      simp [h, hmin]

theorem next_lanesAfter {taken : Nat} (htaken : taken ≤ 8) (earlier : List Tag) (tag : Tag) :
    (lanesAfter taken earlier).next tag.registerClass = lanesAfter taken (earlier ++ [tag]) := by
  unfold Lanes.next lanesAfter spilled intRegs floatRegs slotBytes
  simp only [integers_append, floats_append, integers_cons, floats_cons, integers_nil, floats_nil]
  cases tag.registerClass with
  | integer =>
    simp only [reduceCtorEq, if_true, if_false]
    split
    · congr 1 <;> omega
    · congr 1 <;> omega
  | float =>
    simp only [reduceCtorEq, if_true, if_false]
    split
    · congr 1 <;> omega
    · congr 1 <;> omega

def placementsAfter (earlier : List Tag) : List Tag → List Placement
  | [] => []
  | tag :: later =>
    ⟨tag, location 0 earlier tag, location reservedInts earlier tag⟩ ::
      placementsAfter (earlier ++ [tag]) later

theorem length_placementsAfter (earlier args : List Tag) :
    (placementsAfter earlier args).length = args.length := by
  induction args generalizing earlier with
  | nil => rfl
  | cons tag args ih => rw [placementsAfter, List.length_cons, List.length_cons, ih]

theorem mem_placementsAfter {earlier args : List Tag} {p : Placement} :
    p ∈ placementsAfter earlier args ↔ ∃ before tag later, args = before ++ tag :: later ∧
      p = ⟨tag, location 0 (earlier ++ before) tag,
        location reservedInts (earlier ++ before) tag⟩ := by
  induction args generalizing earlier with
  | nil => simp [placementsAfter]
  | cons tag args ih =>
    rw [placementsAfter, List.mem_cons, ih]
    constructor
    · rintro (rfl | ⟨before, tag', later, rfl, rfl⟩)
      · exact ⟨[], tag, args, rfl, by rw [List.append_nil]⟩
      · exact ⟨tag :: before, tag', later, rfl, by rw [List.append_assoc]; rfl⟩
    · rintro ⟨before, tag', later, hargs, rfl⟩
      cases before with
      | nil =>
        obtain ⟨rfl, rfl⟩ := List.cons.inj hargs
        exact .inl (by rw [List.append_nil])
      | cons head before =>
        obtain ⟨rfl, rfl⟩ := List.cons.inj hargs
        exact .inr ⟨before, tag', later, rfl, by rw [List.append_assoc]; rfl⟩

theorem foldl_push (earlier : List Tag) {p : Placed} (hsources : p.sources = lanesAfter 0 earlier)
    (htargets : p.targets = lanesAfter reservedInts earlier) (args : List Tag) :
    (args.foldl Placed.push p).placements.toList =
        p.placements.toList ++ placementsAfter earlier args ∧
      (args.foldl Placed.push p).sources = lanesAfter 0 (earlier ++ args) ∧
      (args.foldl Placed.push p).targets = lanesAfter reservedInts (earlier ++ args) := by
  induction args generalizing earlier p with
  | nil =>
    rw [List.append_nil]
    exact ⟨(List.append_nil _).symm, hsources, htargets⟩
  | cons tag args ih =>
    have hpush := ih (earlier ++ [tag]) (p := p.push tag)
      (by rw [Placed.push, hsources, next_lanesAfter (by decide)])
      (by rw [Placed.push, htargets, next_lanesAfter (by decide)])
    rw [List.foldl_cons, hpush.1, hpush.2.1, hpush.2.2, List.append_assoc]
    refine ⟨?_, rfl, rfl⟩
    simp only [Placed.push, Array.toList_push, hsources, htargets, location_lanesAfter,
      placementsAfter, List.append_assoc, List.singleton_append]

/-- Whether the later placement can be made first: it keeps the register that the earlier one
reads, and the earlier one keeps what it has delivered. -/
def Clear (first second : Placement) : Prop :=
  (first.source.isStack = false → first.source ≠ second.target) ∧
    first.target.Apart second.target

theorem clear_of_before {earlier between : List Tag} {tag tag' : Tag} :
    Clear ⟨tag, location 0 earlier tag, location reservedInts earlier tag⟩
      ⟨tag', location 0 (earlier ++ tag :: between) tag',
        location reservedInts (earlier ++ tag :: between) tag'⟩ := by
  have hints : integers (earlier ++ tag :: between) = integers earlier +
      (if tag.registerClass = .integer then 1 else 0) + integers between := by
    rw [integers_append, integers_cons, Nat.add_assoc]
  have hfloats : floats (earlier ++ tag :: between) = floats earlier +
      (if tag.registerClass = .float then 1 else 0) + floats between := by
    rw [floats_append, floats_cons, Nat.add_assoc]
  constructor
  · intro hreg heq
    simp only at hreg heq
    cases hs : location 0 earlier tag with
    | intReg r =>
      obtain ⟨hc, hr⟩ := location_eq_intReg_iff.mp hs
      obtain ⟨-, hr'⟩ := location_eq_intReg_iff.mp (heq.symm.trans hs)
      rw [hints, if_pos hc] at hr'
      unfold reservedInts at hr'
      omega
    | floatReg r =>
      obtain ⟨hc, hr⟩ := location_eq_floatReg_iff.mp hs
      obtain ⟨-, hr'⟩ := location_eq_floatReg_iff.mp (heq.symm.trans hs)
      rw [hfloats, if_pos hc] at hr'
      omega
    | stack offset =>
      rw [hs] at hreg
      cases hreg
  · simp only
    cases ht : location reservedInts earlier tag with
    | intReg r =>
      intro heq
      obtain ⟨hc, hr⟩ := location_eq_intReg_iff.mp ht
      obtain ⟨-, hr'⟩ := location_eq_intReg_iff.mp heq.symm
      rw [hints, if_pos hc] at hr'
      omega
    | floatReg r =>
      intro heq
      obtain ⟨hc, hr⟩ := location_eq_floatReg_iff.mp ht
      obtain ⟨-, hr'⟩ := location_eq_floatReg_iff.mp heq.symm
      rw [hfloats, if_pos hc] at hr'
      omega
    | stack offset =>
      cases ht' : location reservedInts (earlier ++ tag :: between) tag' with
      | stack offset' =>
        have hslot := (stack_slot between ht).2
        obtain ⟨rfl, -⟩ := stack_slot [] ht'
        exact .inl hslot
      | _ => exact Location.noConfusion

theorem pairwise_placementsAfter (earlier args : List Tag) :
    (placementsAfter earlier args).Pairwise Clear := by
  induction args generalizing earlier with
  | nil => exact .nil
  | cons tag args ih =>
    refine .cons ?_ (ih _)
    intro p hp
    obtain ⟨before, tag', later, -, rfl⟩ := mem_placementsAfter.mp hp
    rw [List.append_assoc, List.singleton_append]
    exact clear_of_before

/-- What a frame is laid out for. -/
structure Frame.Holds (f : Frame) (outgoing tagBytes : Nat) : Prop where
  outgoing : f.outgoing = outgoing
  bytes_le : f.tagsOffset + tagBytes ≤ f.size
  aligned : f.size % 16 = 0
  size_le : f.size ≤ Arm64.wideLimit
  of_preIndexed : f.shape = .preIndexed → f.outgoing = 0

theorem holds_of_ofBytes {outgoing tagBytes : Nat} {f : Frame}
    (h : Frame.ofBytes outgoing tagBytes = .ok f) : f.Holds outgoing tagBytes := by
  have haligned : Frame.aligned (outgoing + Frame.recordBytes + tagBytes) % 16 = 0 := by
    unfold Frame.aligned; omega
  have hbytes : outgoing + Frame.recordBytes + tagBytes ≤
      Frame.aligned (outgoing + Frame.recordBytes + tagBytes) := by
    unfold Frame.aligned; omega
  unfold Frame.ofBytes at h
  dsimp only at h
  generalize Frame.aligned (outgoing + Frame.recordBytes + tagBytes) = size at h haligned hbytes
  split at h
  · next hpre =>
    obtain rfl := Except.ok.inj h
    have hlimit : Frame.pairLimit ≤ Arm64.wideLimit := by decide
    exact ⟨rfl, hbytes, haligned, Nat.le_trans hpre.2 hlimit, fun _ => hpre.1⟩
  · split at h
    · next hsize =>
      obtain rfl := Except.ok.inj h
      exact ⟨rfl, hbytes, haligned, hsize, fun hshape => by cases hshape⟩
    · cases h

/-- What is planned for a signature. -/
structure Planned (sig : Signature) (p : Plan) : Prop where
  environment : sig.args.head? = some .pointer
  signature : p.signature = sig
  placements : p.placements = placementsAfter [] sig.args
  frame : p.frame.Holds (8 * spilled reservedInts sig.args) (sig.args.length + 1)

theorem planned_of_plan {sig : Signature} {p : Plan} (h : plan sig = .ok p) : Planned sig p := by
  unfold plan at h
  split at h
  · cases h
  · next hhead =>
    split at h
    · cases h
    · obtain ⟨frame, hframe, hp⟩ := Checked.bind_eq_ok_iff.mp h
      obtain rfl := Checked.pure_eq_ok_iff.mp hp
      obtain ⟨hplacements, -, htargets⟩ := foldl_push [] (p := .empty) rfl rfl sig.args
      rw [htargets] at hframe
      exact ⟨by simpa using hhead, rfl, hplacements, holds_of_ofBytes hframe⟩

end Call

end NativeBridge
