import NativeBridge.Proofs.Call.Planning

/-! # Plans in closed form

Where an argument comes from and where it goes is told by counting the arguments before it: the
integers, the floats, and those that one side or the other keeps on the stack. The frame is told
by counting all of them.
-/

namespace NativeBridge.Call

open Checked

/-- Where an argument of a class travels behind so many integers, floats and arguments on the
stack, when the first `taken` integer registers are not for arguments. -/
def countedLocation (taken ints floats slots : Nat) : RegisterClass → Location
  | .integer => if h : taken + ints < 8 then .intReg ⟨taken + ints, h⟩ else .stack (8 * slots)
  | .float => if h : floats < 8 then .floatReg ⟨floats, h⟩ else .stack (8 * slots)

theorem location_eq_countedLocation (taken : Nat) (earlier : List Tag) (tag : Tag) :
    location taken earlier tag = countedLocation taken (integers earlier) (floats earlier)
      (spilled taken earlier) tag.registerClass := by
  unfold location countedLocation
  cases tag.registerClass with
  | integer => rfl
  | float => rfl

theorem take_placementsAfter (earlier args : List Tag) (k : Nat) :
    (placementsAfter earlier args).take k = placementsAfter earlier (args.take k) := by
  induction args generalizing earlier k with
  | nil => simp [placementsAfter]
  | cons tag args ih =>
    cases k with
    | zero => rfl
    | succ k => rw [placementsAfter, List.take_succ_cons, List.take_succ_cons, placementsAfter, ih]

theorem getElem?_placementsAfter (earlier args : List Tag) (k : Nat) :
    (placementsAfter earlier args)[k]? = args[k]?.map fun tag =>
      ⟨tag, location 0 (earlier ++ args.take k) tag,
        location reservedInts (earlier ++ args.take k) tag⟩ := by
  induction args generalizing earlier k with
  | nil => simp [placementsAfter]
  | cons tag args ih =>
    cases k with
    | zero => simp [placementsAfter]
    | succ k =>
      rw [placementsAfter, List.getElem?_cons_succ, ih, List.getElem?_cons_succ,
        List.take_succ_cons, List.append_assoc, List.singleton_append]

/-- The slots of one side are as many as its arguments on the stack. -/
theorem countP_placementsAfter (side : Placement → Location) {taken : Nat}
    (hside : ∀ earlier tag, side ⟨tag, location 0 earlier tag, location reservedInts earlier tag⟩ =
      location taken earlier tag) (earlier args : List Tag) :
    spilled taken earlier + (placementsAfter earlier args).countP (fun p => (side p).isStack) =
      spilled taken (earlier ++ args) := by
  induction args generalizing earlier with
  | nil => rw [placementsAfter, List.countP_nil, Nat.add_zero, List.append_nil]
  | cons tag args ih =>
    have hrest := ih (earlier ++ [tag])
    rw [spilled_snoc, List.append_assoc, List.singleton_append] at hrest
    rw [placementsAfter, List.countP_cons, hside]
    omega

theorem countP_source (args : List Tag) :
    (placementsAfter [] args).countP (·.source.isStack) = spilled 0 args := by
  have h := countP_placementsAfter Placement.source (fun _ _ => rfl) [] args
  rwa [show spilled 0 [] = 0 from rfl, Nat.zero_add] at h

theorem countP_target (args : List Tag) :
    (placementsAfter [] args).countP (·.target.isStack) = spilled reservedInts args := by
  have h := countP_placementsAfter Placement.target (fun _ _ => rfl) [] args
  rwa [show spilled reservedInts [] = 0 from rfl, Nat.zero_add] at h

/-- Whether every argument is placed by the counts of the arguments before it. The caller passes
the first eight integers and floats in registers; where they go, two integers are given already. -/
structure Counted (args : List Tag) (ps : List Placement) : Prop where
  length_eq : ps.length = args.length
  placement : ∀ (k : Nat) (tag : Tag), args[k]? = some tag →
    ps[k]? = some {
      tag
      source := countedLocation 0 (integers (args.take k)) (floats (args.take k))
        ((ps.take k).countP (·.source.isStack)) tag.registerClass
      target := countedLocation 2 (integers (args.take k)) (floats (args.take k))
        ((ps.take k).countP (·.target.isStack)) tag.registerClass }

theorem counted_placementsAfter (args : List Tag) : Counted args (placementsAfter [] args) where
  length_eq := length_placementsAfter [] args
  placement k tag htag := by
    rw [getElem?_placementsAfter, htag, take_placementsAfter, countP_source, countP_target,
      Option.map_some, List.nil_append, location_eq_countedLocation, location_eq_countedLocation]
    rfl

theorem isLeast_aligned (bytes : Nat) :
    IsLeast {n | 16 ∣ n ∧ bytes ≤ n} (Frame.aligned bytes) := by
  unfold Frame.aligned
  refine ⟨⟨Nat.dvd_mul_left .., by omega⟩, ?_⟩
  rintro n ⟨hdvd, hle⟩
  omega

theorem spilled_reservedInts (args : List Tag) :
    spilled reservedInts args = (integers args - 6) + (floats args - 8) := by
  unfold spilled reservedInts
  omega

/-- Only a frame without outgoing arguments can be short enough for its record to be stored while
the stack pointer moves, and every such frame is. -/
theorem preIndexed_iff {args : List Tag} {f : Frame}
    (h : Frame.ofBytes (8 * spilled reservedInts args) (args.length + 1) = .ok f) :
    f.shape = .preIndexed ↔ spilled reservedInts args = 0 := by
  constructor
  · intro hshape
    have houtgoing := (holds_of_ofBytes h).of_preIndexed hshape
    rw [(holds_of_ofBytes h).outgoing] at houtgoing
    omega
  · intro hnone
    have hcount := integers_add_floats args
    have hshort : Frame.aligned (8 * spilled reservedInts args + Frame.recordBytes +
        (args.length + 1)) ≤ Frame.pairLimit := by
      rw [spilled_reservedInts] at hnone ⊢
      unfold Frame.aligned Frame.recordBytes Frame.pairLimit
      omega
    unfold Frame.ofBytes at h
    dsimp only at h
    rw [if_pos ⟨by rw [hnone], hshort⟩] at h
    rw [← Except.ok.inj h]

/-- The frame of a plan, by the bytes of its three parts. -/
structure FrameCounted (args : List Tag) (size : Nat) (p : Plan) : Prop where
  outgoing : p.frame.outgoing = 8 * ((integers args - 6) + (floats args - 8))
  record : p.frame.recordOffset = p.frame.outgoing
  tags : p.frame.tagsOffset = p.frame.recordOffset + 16
  size : p.frame.size = size
  shape : p.frame.shape = .preIndexed ↔ ∀ q ∈ p.placements, q.target.isStack = false

theorem frameCounted_of_plan {sig : Signature} {p : Plan} (h : plan sig = .ok p) :
    FrameCounted sig.args (frameSize sig.args) p := by
  obtain ⟨-, hsignature, hplacements, hframe⟩ := planned_of_plan h
  obtain ⟨-, hsize, -⟩ := frame_of_plan h
  refine ⟨?_, rfl, rfl, hsize, ?_⟩
  · rw [hframe.outgoing, spilled_reservedInts]
  · obtain ⟨hhead, hvoid, -⟩ := accepted_plan_iff.mp ⟨p, h⟩
    rw [plan_eq, if_neg (not_not.mpr hhead), if_neg hvoid] at h
    obtain ⟨frame, hofBytes, rfl⟩ := map_eq_ok_iff.mp h
    rw [preIndexed_iff hofBytes, ← countP_target, List.countP_eq_zero]
    simp only [Bool.not_eq_true]

/-- A call is planned unless its first argument is no pointer, one of them is void, or the frame is
too large. A plan puts every argument where the counts before it say, and lays the outgoing
arguments, the record and the tag string one behind the other in the least frame that is aligned.
The size fits in 32 bits, and so does every sum of bytes that leads to it. -/
theorem plan_counted {sig : Signature} (h : sig.args.length < 2 ^ 28) :
    ∃ size, IsLeast {n | 16 ∣ n ∧ 8 * ((integers sig.args - 6) + (floats sig.args - 8)) + 16 +
        (sig.args.length + 1) ≤ n} size ∧
      size < 2 ^ 32 ∧
      ((∃ defect, plan sig = .error defect) ↔
        sig.args.head? ≠ some .pointer ∨ .void ∈ sig.args ∨ 0xFFFFFF < size) ∧
      ∀ p, plan sig = .ok p →
        p.signature = sig ∧ Counted sig.args p.placements ∧ FrameCounted sig.args size p := by
  refine ⟨frameSize sig.args, ?_, ?_, ?_, fun p hp => ⟨?_, ?_, frameCounted_of_plan hp⟩⟩
  · rw [← spilled_reservedInts]
    exact isLeast_aligned _
  · have hsize := frameSize_le sig.args
    have hslots := spilled_le reservedInts sig.args
    unfold reservedInts at hsize hslots
    omega
  · have haccepted : Accepted (plan sig) ↔ _ := accepted_plan_iff
    cases hplan : plan sig with
    | error defect =>
      rw [hplan] at haccepted
      have hrefused := mt haccepted.mpr (not_accepted_error defect)
      simp only [not_and_or, not_not, Nat.not_le] at hrefused
      exact iff_of_true ⟨defect, rfl⟩ hrefused
    | ok p =>
      obtain ⟨hhead, hvoid, hsize⟩ := haccepted.mp ⟨p, hplan⟩
      refine iff_of_false (by simp) ?_
      rintro (hne | hmem | hlt)
      · exact hne hhead
      · exact hvoid hmem
      · exact Nat.not_lt_of_le hsize hlt
  · exact (planned_of_plan hp).signature
  · rw [(planned_of_plan hp).placements]
    exact counted_placementsAfter sig.args

/-- Integers and floats that find no register any more share the stack in their order. -/
def interleaved : Signature where
  args := .pointer :: .replicate 8 .double ++ .replicate 7 .long ++ [.float, .int, .double]
  ret := .void

theorem plan_counted_interleaved : interleaved.args.length < 2 ^ 28 ∧
    ∃ p, plan interleaved = .ok p ∧ Counted interleaved.args p.placements ∧
      p.placements[17]? = some ⟨.int, .stack 8, .stack 24⟩ ∧ p.frame.tagsOffset = 56 := by
  have hlength : interleaved.args.length < 2 ^ 28 := by decide
  obtain ⟨size, -, -, -, hplanned⟩ := plan_counted hlength
  obtain ⟨p, hp⟩ : ∃ p, plan interleaved = .ok p := exists_ok_of_isOk (by decide)
  obtain ⟨-, hcounted, hframe⟩ := hplanned p hp
  refine ⟨hlength, p, hp, hcounted, ?_, ?_⟩
  · rw [(planned_of_plan hp).placements]
    decide
  · rw [hframe.tags, hframe.record, hframe.outgoing]
    decide

end NativeBridge.Call
