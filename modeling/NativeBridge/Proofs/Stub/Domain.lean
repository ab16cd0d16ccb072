import NativeBridge.Proofs.Stub.Accesses
import NativeBridge.Proofs.Stub.Called

/-! # Which signatures have a stub

A signature has a stub when it begins with the environment, has no void argument, and loads reach
everything that arrives on the stack, counted from below the frame. Nothing else is ever in the
way: an argument that arrives on the stack lies beyond the whole frame, so that its load is out of
reach before the frame, an outgoing slot or the tag string is.
-/

namespace NativeBridge.Stub

open Arm64 Call Checked

variable {sig : Signature} {p : Plan} {q : Placement} {target : Target}

/-- How far from the stack pointer an argument can be loaded. -/
def loadLimit (tag : Tag) : Nat :=
  if tag ∈ [.pointer, .long, .ulong, .double] then 32760 else 16380

/-- Whether a signature is one that stubs are made for. -/
structure Encodable (sig : Signature) : Prop where
  environment : sig.args.head? = some .pointer
  void_not_mem : .void ∉ sig.args
  reached : ∀ earlier tag later offset, sig.args = earlier ++ tag :: later →
    location 0 earlier tag = .stack offset → frameSize sig.args + offset ≤ loadLimit tag

theorem encodable_iff_placements : Encodable sig ↔
    sig.args.head? = some .pointer ∧ .void ∉ sig.args ∧
      ∀ q ∈ placementsAfter [] sig.args, ∀ t ∈ fetches (frameSize sig.args) q,
        t.2 ≤ loadLimit q.tag := by
  constructor
  · rintro ⟨henvironment, hvoid, hreached⟩
    refine ⟨henvironment, hvoid, fun q hq => ?_⟩
    obtain ⟨earlier, tag, later, hargs, rfl⟩ := mem_placementsAfter.mp hq
    unfold fetches
    cases hs : location 0 ([] ++ earlier) tag with
    | stack offset => simpa using hreached earlier tag later offset hargs hs
    | _ => simp
  · rintro ⟨henvironment, hvoid, hreached⟩
    refine ⟨henvironment, hvoid, fun earlier tag later offset hargs hs => ?_⟩
    have hq : (⟨tag, location 0 earlier tag, location reservedInts earlier tag⟩ : Placement) ∈
        placementsAfter [] sig.args := mem_placementsAfter.mpr ⟨earlier, tag, later, hargs, rfl⟩
    exact hreached _ hq (loadOf tag, _) (by simp [fetches, hs])

instance (sig : Signature) : Decidable (Encodable sig) :=
  decidable_of_iff _ encodable_iff_placements.symm

theorem reaches_loadOf_iff {tag : Tag} {offset : Nat} (h : 8 ∣ offset) :
    (loadOf tag).Reaches offset ↔ offset ≤ loadLimit tag := by
  have h4 : 4 ∣ offset := Nat.dvd_trans (by decide) h
  cases tag <;> simp [Access.Reaches, loadOf, Tag.isWide, Access.width, loadLimit, h, h4]

theorem reaches_storeOf_iff {c : RegisterClass} {offset : Nat} (h : 8 ∣ offset) :
    (storeOf c).Reaches offset ↔ offset ≤ 32760 := by
  cases c <;> simp [Access.Reaches, storeOf, Access.width, h]

theorem width_dvd_eight (op : Access) : op.width ∣ 8 := by
  cases op <;> decide

theorem loadLimit_le (tag : Tag) : loadLimit tag ≤ 32760 := by
  unfold loadLimit
  split <;> decide

/-- The frame of a plan, with its measures as they follow from the signature. -/
theorem measures_of_plan (h : plan sig = .ok p) :
    p.frame.outgoing = 8 * spilled reservedInts sig.args ∧ p.frame.size = frameSize sig.args ∧
      p.frame.size ≤ 0xFFFFFF ∧ (p.frame.shape = .preIndexed → p.frame.size ≤ 504) := by
  have hp := planned_of_plan h
  obtain ⟨-, hsize, hpre⟩ := frame_of_plan h
  exact ⟨hp.frame.outgoing, hsize, hp.frame.size_le, hpre⟩

theorem accepted_enter (h : plan sig = .ok p) : Accepted (enter p.frame) := by
  obtain ⟨houtgoing, hsize, hlimit, hpre⟩ := measures_of_plan h
  have haligned := sixteen_dvd_frameSize sig.args
  have hbytes := le_frameSize sig.args
  have hrecord : p.frame.recordOffset = p.frame.outgoing := rfl
  unfold enter
  split
  · next hshape =>
    have hpair := hpre hshape
    refine accepted_bind_of_forall (accepted_pair_iff.mpr ?_) fun store => ?_
    · omega
    exact accepted_bind_of_forall (accepted_add_iff.mpr (by decide)) fun point => accepted_pure _
  · refine accepted_bind_of_forall (accepted_wide_iff.mpr hlimit) fun move => ?_
    split
    · next hnear =>
      rw [Frame.pairLimit] at hnear
      refine accepted_bind_of_forall (accepted_pair_iff.mpr ?_) fun store => ?_
      · omega
      refine accepted_bind_of_forall (accepted_add_iff.mpr ?_) fun point => accepted_pure _
      omega
    · refine accepted_bind_of_forall (accepted_wide_iff.mpr ?_) fun reach => ?_
      · omega
      refine accepted_bind_of_forall (accepted_pair_iff.mpr (by decide)) fun store => ?_
      exact accepted_bind_of_forall (accepted_add_iff.mpr (by decide)) fun point => accepted_pure _

theorem accepted_leave (h : plan sig = .ok p) : Accepted (leave p.frame) := by
  obtain ⟨houtgoing, hsize, hlimit, hpre⟩ := measures_of_plan h
  have haligned := sixteen_dvd_frameSize sig.args
  have hbytes := le_frameSize sig.args
  have hrecord : p.frame.recordOffset = p.frame.outgoing := rfl
  unfold leave
  split
  · next hshape =>
    have hpair := hpre hshape
    refine accepted_bind_of_forall (accepted_pair_iff.mpr ?_) fun load => accepted_pure _
    omega
  · split
    · next hnear =>
      rw [Frame.pairLimit] at hnear
      refine accepted_bind_of_forall (accepted_pair_iff.mpr ?_) fun load => ?_
      · omega
      exact accepted_bind_of_forall (accepted_wide_iff.mpr hlimit) fun up => accepted_pure _
    · refine accepted_bind_of_forall (accepted_wide_iff.mpr ?_) fun reach => ?_
      · omega
      refine accepted_bind_of_forall (accepted_pair_iff.mpr (by decide)) fun load => ?_
      exact accepted_bind_of_forall (accepted_wide_iff.mpr hlimit) fun up => accepted_pure _

theorem tagsOffset_of_plan (h : plan sig = .ok p) :
    8 ∣ p.frame.tagsOffset ∧ p.frame.tagsOffset ≤ 0xFFFFFF := by
  obtain ⟨houtgoing, hsize, hlimit, -⟩ := measures_of_plan h
  have hbytes := le_frameSize sig.args
  have htags : p.frame.tagsOffset = p.frame.outgoing + 16 := rfl
  omega

theorem length_encode_tagString (sig : Signature) :
    (Text.encode sig.tagString).length = sig.args.length := by
  have h := congrArg List.length (encode_tagString sig)
  rw [length_tagBytes, List.length_append] at h
  exact Nat.succ.inj h

/-- Only the stores from register 1 can be out of reach. -/
theorem accepted_passTags (h : plan sig = .ok p) (hlength : sig.args.length ≤ 4095) :
    Accepted (passTags p.frame sig.tagString) := by
  obtain ⟨haligned, hlimit⟩ := tagsOffset_of_plan h
  have hencode := length_encode_tagString sig
  have hwidth (count : Nat) := width_dvd_eight (widest count)
  have hreach {base : Reg} {offset : Nat} (haligned : 8 ∣ offset)
      (hend : offset + (Text.encode sig.tagString ++ [0]).length ≤ 4096) :
      Accepted (storeBytes base offset (Text.encode sig.tagString ++ [0])) := by
    obtain ⟨tried, htries, htried⟩ := storeBytes_tries base ((hwidth _).trans haligned)
    refine htries.accepted_iff.mpr fun t ht => ?_
    obtain ⟨hdvd, hlt⟩ := htried t ht
    -- a byte store reaches least far, up to 4095
    have hpos := Nat.mul_le_mul_right 4095 t.1.width_pos
    exact ⟨hdvd, by omega⟩
  unfold passTags
  rw [List.length_append, List.length_singleton, hencode] at hreach
  dsimp only
  split
  · next hnear =>
    rw [hencode, byteLimit] at hnear
    refine accepted_bind_of_forall (hreach haligned (by omega)) fun stores => ?_
    refine accepted_bind_of_forall (accepted_add_iff.mpr ?_) fun point => accepted_pure _
    omega
  · refine accepted_bind_of_forall (accepted_wide_iff.mpr hlimit) fun point => ?_
    exact accepted_bind_of_forall (hreach (Nat.dvd_zero 8) (by omega)) fun _ => accepted_pure _

theorem passTags_refusedOnly (h : plan sig = .ok p) :
    RefusedOnly StubDefect.IsOutOfRange (passTags p.frame sig.tagString) := by
  obtain ⟨haligned, hlimit⟩ := tagsOffset_of_plan h
  have hwidth (count : Nat) := width_dvd_eight (widest count)
  have hstores {base : Reg} {offset : Nat} (haligned : 8 ∣ offset) :
      RefusedOnly StubDefect.IsOutOfRange
        (storeBytes base offset (Text.encode sig.tagString ++ [0])) := by
    obtain ⟨tried, htries, htried⟩ := storeBytes_tries base ((hwidth _).trans haligned)
    exact htries.refusedOnly fun t ht => (htried t ht).1
  unfold passTags
  dsimp only
  split
  · next hnear =>
    rw [byteLimit] at hnear
    refine (hstores haligned).bind fun stores => ?_
    exact (RefusedOnly.of_accepted (accepted_add_iff.mpr (by omega))).bind fun _ => .ok _
  · refine (RefusedOnly.of_accepted (accepted_wide_iff.mpr hlimit)).bind fun point => ?_
    exact (hstores (Nat.dvd_zero 8)).bind fun _ => .ok _

theorem move_tries_of_plan (h : plan sig = .ok p) (hq : q ∈ p.placements) :
    Tries (move p.frame.size q) (fetches p.frame.size q ++ deliveries q) := by
  obtain ⟨earlier, tag, later, -, rfl⟩ := (planned_of_plan h).mem_placements_iff.mp hq
  exact move_tries (location_serves ..) (location_serves ..)

/-- Slots are eight bytes and so is the frame's size a multiple of eight. -/
theorem eight_dvd_of_plan (h : plan sig = .ok p) (hq : q ∈ p.placements) (offset : Nat) :
    (q.source = .stack offset → 8 ∣ p.frame.size + offset) ∧
      (q.target = .stack offset → 8 ∣ offset) := by
  obtain ⟨-, hsize, -, -⟩ := measures_of_plan h
  have haligned := sixteen_dvd_frameSize sig.args
  obtain ⟨earlier, tag, later, -, rfl⟩ := (planned_of_plan h).mem_placements_iff.mp hq
  constructor
  · intro hs
    have := (stack_slot later hs).1
    omega
  · intro ht
    have := (stack_slot later ht).1
    omega

theorem accepted_move_iff (h : plan sig = .ok p) (hq : q ∈ p.placements) :
    Accepted (move p.frame.size q) ↔
      (∀ offset, q.source = .stack offset → p.frame.size + offset ≤ loadLimit q.tag) ∧
        ∀ offset, q.target = .stack offset → offset ≤ 32760 := by
  rw [(move_tries_of_plan h hq).accepted_iff, List.forall_mem_append]
  refine and_congr ?_ ?_
  · have haligned (offset : Nat) := (eight_dvd_of_plan h hq offset).1
    unfold fetches
    cases hs : q.source with
    | stack offset => simp [reaches_loadOf_iff (haligned offset hs)]
    | _ => simp
  · have haligned (offset : Nat) := (eight_dvd_of_plan h hq offset).2
    unfold deliveries
    cases ht : q.target with
    | stack offset => simp [reaches_storeOf_iff (haligned offset ht)]
    | _ => simp

theorem move_refusedOnly (h : plan sig = .ok p) (hq : q ∈ p.placements) :
    RefusedOnly StubDefect.IsOutOfRange (move p.frame.size q) := by
  refine (move_tries_of_plan h hq).refusedOnly (List.forall_mem_append.mpr ⟨?_, ?_⟩)
  · have haligned (offset : Nat) := (eight_dvd_of_plan h hq offset).1
    unfold fetches
    cases hs : q.source with
    | stack offset => simpa using (width_dvd_eight _).trans (haligned offset hs)
    | _ => simp
  · have haligned (offset : Nat) := (eight_dvd_of_plan h hq offset).2
    unfold deliveries
    cases ht : q.target with
    | stack offset => simpa using (width_dvd_eight _).trans (haligned offset ht)
    | _ => simp

/-- If loads reach beyond the frame, everything in it is near. -/
theorem Encodable.frameSize_add_le (h : Encodable sig) :
    frameSize sig.args + 8 * spilled 0 sig.args ≤ 32768 := by
  rcases Nat.eq_zero_or_pos (spilled 0 sig.args) with hnone | hsome
  · -- everything arrives in registers, of which there are sixteen
    have hsize := frameSize_le sig.args
    have hlength := integers_add_floats sig.args
    rw [hnone]
    unfold spilled at hnone hsize
    unfold reservedInts at hsize
    omega
  · -- the last argument on the stack lies beyond the frame and all the others
    obtain ⟨earlier, tag, later, hargs, hlast⟩ := exists_last_slot (Nat.zero_le 8) hsome
    have hreached := h.reached earlier tag later _ hargs hlast
    have hlimit := loadLimit_le tag
    omega

theorem Encodable.length_le (h : Encodable sig) : sig.args.length ≤ 4095 := by
  have hbound := h.frameSize_add_le
  have hbytes := le_frameSize sig.args
  have hlength := integers_add_floats sig.args
  unfold spilled at hbound
  omega

theorem accepted_plan_of_encodable (h : Encodable sig) : Accepted (plan sig) := by
  have hbound := h.frameSize_add_le
  exact accepted_plan_iff.mpr ⟨h.environment, h.void_not_mem, by omega⟩

theorem accepted_assemble_iff_of_plan (h : plan sig = .ok p) (target : Target) :
    Accepted (assemble sig target) ↔ (∀ q ∈ p.placements, Accepted (move p.frame.size q)) ∧
      Accepted (passTags p.frame sig.tagString) := by
  have hsignature := (planned_of_plan h).signature
  unfold assemble instructions
  rw [accepted_mapError_iff, accepted_map_iff, h]
  change Accepted (ofPlan p target) ↔ _
  constructor
  · rintro ⟨is, his⟩
    obtain ⟨opening, -, his⟩ := bind_eq_ok_iff.mp his
    obtain ⟨moves, hmoves, his⟩ := bind_eq_ok_iff.mp his
    obtain ⟨tags, htags, -⟩ := bind_eq_ok_iff.mp his
    rw [hsignature] at htags
    refine ⟨fun q hq => ?_, ⟨tags, htags⟩⟩
    exact accepted_mapM_iff.mp ⟨moves, hmoves⟩ q (List.mem_reverse.mpr hq)
  · rintro ⟨hmoves, htags⟩
    unfold ofPlan
    rw [hsignature]
    refine accepted_bind_of_forall (accepted_enter h) fun opening => ?_
    refine accepted_bind_of_forall (accepted_mapM_iff.mpr fun q hq => ?_) fun moves => ?_
    · exact hmoves q (List.mem_reverse.mp hq)
    refine accepted_bind_of_forall htags fun tags => ?_
    exact accepted_bind_of_forall (accepted_leave h) fun closing => accepted_pure _

theorem accepted_assemble_iff (sig : Signature) (target : Target) :
    Accepted (assemble sig target) ↔ Encodable sig := by
  constructor
  · rintro ⟨words, hwords⟩
    obtain ⟨p, -, -, -, -, hplan, hp, -, -⟩ := sections_of_assemble hwords
    obtain ⟨-, hsize, -, -⟩ := measures_of_plan hplan
    obtain ⟨hmoves, -⟩ := (accepted_assemble_iff_of_plan hplan target).mp ⟨words, hwords⟩
    refine ⟨hp.environment, (frame_of_plan hplan).1, fun earlier tag later offset hargs hs => ?_⟩
    have hq := hp.mem_placements_iff.mpr ⟨earlier, tag, later, hargs, rfl⟩
    rw [← hsize]
    exact ((accepted_move_iff hplan hq).mp (hmoves _ hq)).1 offset hs
  · intro h
    obtain ⟨p, hplan⟩ := accepted_plan_of_encodable h
    have hp := planned_of_plan hplan
    obtain ⟨houtgoing, hsize, -, -⟩ := measures_of_plan hplan
    refine (accepted_assemble_iff_of_plan hplan target).mpr
      ⟨fun q hq => (accepted_move_iff hplan hq).mpr ⟨?_, ?_⟩, accepted_passTags hplan h.length_le⟩
    · intro offset hs
      obtain ⟨earlier, tag, later, hargs, rfl⟩ := hp.mem_placements_iff.mp hq
      rw [hsize]
      exact h.reached earlier tag later offset hargs hs
    · intro offset ht
      have hslot := hp.target_le hq ht
      have hbound := h.frameSize_add_le
      have hbytes := le_frameSize sig.args
      omega

/-- Why a signature has no stub. -/
inductive Unencodable (sig : Signature) : StubDefect → Prop
  | unplannable {defect : StubDefect} : Unplannable sig defect → Unencodable sig defect
  | outOfRange (instruction : String) (offset : Nat) :
      Unencodable sig (.outOfRange instruction offset)

theorem ofPlan_refusedOnly (h : plan sig = .ok p) (target : Target) :
    RefusedOnly StubDefect.IsOutOfRange (ofPlan p target) := by
  unfold ofPlan
  rw [(planned_of_plan h).signature]
  refine (RefusedOnly.of_accepted (accepted_enter h)).bind fun opening => ?_
  refine (RefusedOnly.mapM fun q hq => ?_).bind fun moves => ?_
  · exact move_refusedOnly h (List.mem_reverse.mp hq)
  refine (passTags_refusedOnly h).bind fun tags => ?_
  exact (RefusedOnly.of_accepted (accepted_leave h)).bind fun closing => .ok _

theorem instructions_refusedOnly (sig : Signature) (target : Target) :
    RefusedOnly (Unencodable sig) (instructions sig target) := by
  unfold instructions
  cases hplan : plan sig with
  | error defect => exact .error (.unplannable (plan_refusedOnly sig defect hplan))
  | ok p =>
    refine (ofPlan_refusedOnly hplan target).mono ?_
    rintro _ ⟨instruction, offset, rfl⟩
    exact .outOfRange instruction offset

/-- Whether every sum of bytes that is formed for a stub, accepted or not, fits in 32 bits. -/
structure Within32 (sig : Signature) : Prop where
  lanes : ∀ earlier later, sig.args = earlier ++ later →
    (earlier.foldl Placed.push .empty).sources.nextStack < 2 ^ 32 ∧
      (earlier.foldl Placed.push .empty).targets.nextStack < 2 ^ 32
  size : Frame.aligned ((sig.args.foldl Placed.push .empty).targets.nextStack +
    Frame.recordBytes + (sig.args.length + 1)) < 2 ^ 32
  loads : ∀ p, plan sig = .ok p → ∀ q ∈ p.placements, ∀ offset, q.source = .stack offset →
    p.frame.size + offset < 2 ^ 32
  tags : ∀ p, plan sig = .ok p →
    p.frame.tagsOffset + (Text.encode sig.tagString ++ [0]).length < 2 ^ 32

theorem within32_of_length (h : sig.args.length < 2 ^ 28) : Within32 sig where
  lanes earlier later hargs := by
    obtain ⟨-, hsources, htargets⟩ := foldl_push [] (p := .empty) rfl rfl earlier
    have hlength := congrArg List.length hargs
    have hin := spilled_le 0 earlier
    have hout := spilled_le reservedInts earlier
    rw [List.length_append] at hlength
    unfold reservedInts at hout
    simp only [hsources, htargets, lanesAfter, List.nil_append, reservedInts]
    omega
  size := by
    obtain ⟨-, -, htargets⟩ := foldl_push [] (p := .empty) rfl rfl sig.args
    have hsize := frameSize_le sig.args
    have hout := spilled_le reservedInts sig.args
    have hreserved : reservedInts = 2 := rfl
    rw [htargets]
    change frameSize sig.args < 2 ^ 32
    omega
  loads p hplan q hq offset hs := by
    obtain ⟨-, -, hlimit, -⟩ := measures_of_plan hplan
    have hslot := (planned_of_plan hplan).source_le hq hs
    have hin := spilled_le 0 sig.args
    omega
  tags p hplan := by
    obtain ⟨-, hlimit⟩ := tagsOffset_of_plan hplan
    rw [List.length_append, length_encode_tagString, List.length_singleton]
    omega

/-- Stubs are made for the encodable signatures, every other one is refused with its reason, and
the sums formed on the way are the same in 32 bits. -/
theorem assemble_domain (h : sig.args.length < 2 ^ 28) (target : Target) :
    ((∃ words, assemble sig target = .ok words) ↔ Encodable sig) ∧
      (¬Encodable sig →
        ∃ defect, assemble sig target = .error (.noStub defect) ∧ Unencodable sig defect) ∧
      Within32 sig := by
  refine ⟨accepted_assemble_iff sig target, fun hnot => ?_, within32_of_length h⟩
  cases hassemble : instructions sig target with
  | ok is =>
    refine absurd ((accepted_assemble_iff sig target).mp ?_) hnot
    exact ⟨_, by unfold assemble; rw [hassemble]; rfl⟩
  | error defect =>
    refine ⟨defect, ?_, instructions_refusedOnly sig target defect hassemble⟩
    unfold assemble
    rw [hassemble]
    rfl

def mixed : Signature where
  args := .replicate 9 .pointer ++ .replicate 9 .double ++ [.float, .long, .ubyte, .short, .double]
  ret := .float

theorem assemble_domain_mixed :
    mixed.args.length < 2 ^ 28 ∧ ∃ words, assemble mixed ⟨1, 2, 3⟩ = .ok words :=
  ⟨by decide, (assemble_domain (by decide) ⟨1, 2, 3⟩).1.mpr (by decide)⟩

end NativeBridge.Stub
