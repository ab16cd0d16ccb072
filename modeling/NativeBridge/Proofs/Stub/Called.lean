import NativeBridge.Proofs.Stub.Frame
import NativeBridge.Proofs.Stub.Length
import NativeBridge.Proofs.Stub.Marshalling
import NativeBridge.Proofs.Stub.Tags

/-! # Up to the call

The frame is entered, the environment replaces the first argument, the arguments move, and the
function, the tag string and the dispatcher are put in their registers. None of these parts undoes
what an earlier one has done, because they keep to their registers and to their part of the frame.
-/

namespace NativeBridge

namespace Call.Planned

open Stub

variable {sig : Signature} {p : Plan} {q : Placement}

theorem mem_placements_iff (hp : Planned sig p) : q ∈ p.placements ↔
    ∃ earlier tag later, sig.args = earlier ++ tag :: later ∧
      q = ⟨tag, location 0 earlier tag, location reservedInts earlier tag⟩ := by
  rw [hp.placements, mem_placementsAfter]
  simp only [List.nil_append]

/-- The record stands above the outgoing arguments and the tag string above the record. -/
theorem layout (hp : Planned sig p) : p.frame.recordOffset = p.frame.outgoing ∧
    p.frame.tagsOffset = p.frame.outgoing + 16 ∧
    p.frame.outgoing + 16 + (sig.args.length + 1) ≤ p.frame.size ∧ p.frame.size < 2 ^ 24 :=
  ⟨rfl, rfl, hp.frame.bytes_le, Nat.lt_succ_of_le hp.frame.size_le⟩

theorem target_le (hp : Planned sig p) (hq : q ∈ p.placements) {offset : Nat}
    (h : q.target = .stack offset) : offset + 8 ≤ p.frame.outgoing := by
  obtain ⟨earlier, tag, later, hargs, rfl⟩ := hp.mem_placements_iff.mp hq
  rw [hp.frame.outgoing, hargs]
  exact (stack_slot later h).2

theorem length_args_lt (hp : Planned sig p) : sig.args.length < 2 ^ 24 := by
  obtain ⟨-, -, hbytes, hsize⟩ := hp.layout
  omega

theorem source_le (hp : Planned sig p) (hq : q ∈ p.placements) {offset : Nat}
    (h : q.source = .stack offset) : offset + 8 ≤ 8 * sig.args.length := by
  obtain ⟨earlier, tag, later, hargs, rfl⟩ := hp.mem_placements_iff.mp hq
  have hslot := (stack_slot later h).2
  have hspilled := spilled_le 0 (earlier ++ tag :: later)
  rw [hargs]
  omega

theorem fits (hp : Planned sig p) (hq : q ∈ p.placements) : Fits p.frame.size q where
  source := by
    intro offset h
    have hsource := hp.source_le hq h
    obtain ⟨-, -, hbytes, hsize⟩ := hp.layout
    omega
  target := by
    intro offset h
    have htarget := hp.target_le hq h
    obtain ⟨-, -, hbytes, -⟩ := hp.layout
    omega
  size_le := by
    obtain ⟨-, -, -, hsize⟩ := hp.layout
    omega

theorem target_intReg (hp : Planned sig p) (hq : q ∈ p.placements) {r : Fin 8}
    (h : q.target = .intReg r) : 2 ≤ r.val := by
  obtain ⟨earlier, tag, later, hargs, rfl⟩ := hp.mem_placements_iff.mp hq
  obtain ⟨-, hr⟩ := location_eq_intReg_iff.mp h
  unfold reservedInts at hr
  omega

theorem environment_mem (hp : Planned sig p) :
    ⟨.pointer, .intReg 0, .intReg 2⟩ ∈ p.placements := by
  have henv := hp.environment
  rw [hp.placements]
  cases hargs : sig.args with
  | nil => rw [hargs] at henv; cases henv
  | cons tag later =>
    rw [hargs] at henv
    obtain rfl := Option.some.inj henv
    exact List.mem_cons_self

end Call.Planned

namespace Stub

open Arm64 Call

def untilCall (target : Target) (opening moves tags : List Instr) : List Instr :=
  opening ++ loadFixed .r0 target.env ++ moves ++ loadFixed .r0 target.function ++ tags
    ++ loadFixed .ip0 target.dispatcher

/-- The parts of a stub. -/
structure Sections (p : Plan) (opening : List Instr) (moves : List (List Instr))
    (tags closing : List Instr) : Prop where
  opening : enter p.frame = .ok opening
  moves : List.Forall₂ (fun q is => move p.frame.size q = .ok is) p.placements moves
  tags : passTags p.frame p.signature.tagString = .ok tags
  closing : leave p.frame = .ok closing

theorem sections_of_ofPlan {p : Plan} {target : Target} {is : List Instr}
    (h : ofPlan p target = .ok is) : ∃ opening moves tags closing,
      Sections p opening moves tags closing ∧
        is = untilCall target opening moves.reverse.flatten tags ++
          .blr .ip0 :: (passResult p.signature.ret ++ closing ++ [.ret]) := by
  obtain ⟨opening, hopening, h⟩ := Checked.bind_eq_ok_iff.mp h
  obtain ⟨moves, hmoves, h⟩ := Checked.bind_eq_ok_iff.mp h
  obtain ⟨tags, htags, h⟩ := Checked.bind_eq_ok_iff.mp h
  obtain ⟨closing, hclosing, h⟩ := Checked.bind_eq_ok_iff.mp h
  obtain rfl := Checked.pure_eq_ok_iff.mp h
  refine ⟨opening, moves.reverse, tags, closing, ⟨hopening, ?_, htags, hclosing⟩, ?_⟩
  · rw [← List.forall₂_reverse_iff, List.reverse_reverse]
    exact Checked.mapM_eq_ok_iff.mp hmoves
  · simp [untilCall]

theorem sections_of_assemble {sig : Signature} {target : Target} {words : List UInt32}
    (h : assemble sig target = .ok words) : ∃ p opening moves tags closing,
      plan sig = .ok p ∧ Planned sig p ∧ Sections p opening moves tags closing ∧
        words = (untilCall target opening moves.reverse.flatten tags ++
          Instr.blr .ip0 :: (passResult sig.ret ++ closing ++ [Instr.ret])).map Instr.word := by
  obtain ⟨is, his, rfl⟩ := Checked.map_eq_ok_iff.mp (Checked.mapError_eq_ok_iff.mp h)
  obtain ⟨p, hplan, his⟩ := Checked.bind_eq_ok_iff.mp his
  have hp := planned_of_plan hplan
  obtain ⟨opening, moves, tags, closing, hs, rfl⟩ := sections_of_ofPlan his
  rw [hp.signature]
  exact ⟨p, opening, moves, tags, closing, hplan, hp, hs, rfl⟩

/-- Whether a callee keeps a general register, beside those for its frame. -/
def IsSaved (r : Reg) : Prop :=
  19 ≤ r.val ∧ r.val ≤ 28

/-- Whether a callee keeps the low half of a vector register. -/
def IsSavedVector (r : Reg) : Prop :=
  8 ≤ r.val ∧ r.val ≤ 15

/-- A machine at the call, for a machine on entry and the bytes touched between them. -/
structure Called (widen : BitVec 32 → BitVec 64) (p : Plan) (target : Target) (e m : Machine)
    (touched : List Touch) : Prop where
  dispatcher : m.x .ip0 = target.dispatcher.toBitVec
  function : m.x .r0 = target.function.toBitVec
  env : m.x (reg 2) = target.env.toBitVec
  sp : m.x .sp = e.x .sp - BitVec.ofNat 64 p.frame.size
  fp : m.x .fp = m.x .sp + BitVec.ofNat 64 p.frame.recordOffset
  tags : m.x .r1 = m.x .sp + BitVec.ofNat 64 p.frame.tagsOffset
  read_tags : m.memory.read (m.x .r1) (p.signature.args.length + 1) = tagBytes p.signature.args
  saved_fp : m.memory.load (m.x .fp) 8 = e.x .fp
  saved_lr : m.memory.load (m.x .fp + 8) 8 = e.x .lr
  delivers : ∀ q ∈ p.placements, q.source ≠ .intReg 0 →
    Delivers widen q.tag (contents e (e.x .sp) q.source) (contents m (m.x .sp) q.target)
  x : ∀ r, IsSaved r → m.x r = e.x r
  v : ∀ r, IsSavedVector r → m.v r = e.v r
  stored : stored touched = span (m.x .fp) 16 ++
    (p.placements.reverse.flatMap fun q => slot (m.x .sp) q.target) ++
    span (m.x .r1) (p.signature.args.length + 1)
  loaded : ∀ b ∈ loaded touched, ∃ q ∈ p.placements, b ∈ slot (e.x .sp) q.source

section

variable {widen : BitVec 32 → BitVec 64} {sig : Signature} {p : Plan} {q : Placement}
  {target : Target} {e n m : Machine} {area : Address} {touched : List Touch}

theorem reg_of_two_le {i : Fin 8} (h : 2 ≤ i.val) :
    reg i ≠ .r0 ∧ reg i ≠ .r1 ∧ reg i ≠ .ip0 ∧ reg i ≠ .ip1 := by
  revert i; decide

theorem IsSaved.ne_reg {r : Reg} (h : IsSaved r) (i : Fin 8) : r ≠ reg i := by
  obtain ⟨hlow, -⟩ := h
  rintro rfl
  simp [reg] at hlow
  omega

theorem IsSaved.ne_of_frame {r : Reg} (h : IsSaved r) :
    r ≠ .ip0 ∧ r ≠ .ip1 ∧ r ≠ .fp ∧ r ≠ .lr ∧ r ≠ .sp := by
  obtain ⟨hlow, hhigh⟩ := h
  refine ⟨?_, ?_, ?_, ?_, ?_⟩ <;> rintro rfl <;> revert hlow hhigh <;> decide

theorem IsSavedVector.ne {r : Reg} (h : IsSavedVector r) (i : Fin 8) :
    r ≠ reg i ∧ r ≠ .vectorScratch := by
  obtain ⟨hlow, hhigh⟩ := h
  constructor
  · rintro rfl
    simp [reg] at hlow
    omega
  · rintro rfl
    revert hhigh
    decide

/-- Arguments are found after the frame is entered where the caller left them. -/
theorem Entered.source_eq (h : Entered p.frame e n touched)
    (hmem : ∀ b, b ∉ Arm64.stored touched → n.memory b = e.memory b) (hp : Planned sig p)
    (hq : q ∈ p.placements) (h0 : q.source ≠ .intReg 0) (value : BitVec 64) :
    contents (n.set .r0 value) (n.x .sp + BitVec.ofNat 64 p.frame.size) q.source =
      contents e (e.x .sp) q.source := by
  have hsp : e.x .sp = n.x .sp + BitVec.ofNat 64 p.frame.size := by
    rw [h.sp, BitVec.sub_add_cancel]
  have hfits := hp.fits hq
  obtain ⟨hrecord, -, hbytes, hsize⟩ := hp.layout
  rw [hsp]
  refine contents_congr ?_ ?_ ?_
  · intro i hi
    have hr0 : reg i ≠ .r0 := by
      intro hreg
      obtain rfl : i = 0 := reg_inj.mp hreg
      exact h0 hi
    exact (Function.update_of_ne hr0 ..).trans
      (h.x _ (reg_ne_sp i) (reg_ne_fp i) (reg_ne_ip1 i))
  · intro i _
    exact congrFun h.v (reg i)
  · intro b hb
    refine hmem b fun hstored => ?_
    rw [h.stored, h.fp] at hstored
    cases hs : q.source with
    | stack offset =>
      have := hfits.source offset hs
      rw [hs, slot, ← incoming] at hb
      exact disjoint_span (n.x .sp) (.inr (by omega)) (by omega) (by omega) hb hstored
    | _ => rw [hs] at hb; cases hb

/-- What the moves have delivered stays when the tag string is passed. -/
theorem TagsPassed.target_eq {bytes : List UInt8} (h : TagsPassed p.frame bytes n m touched)
    (hmem : ∀ b, b ∉ Arm64.stored touched → m.memory b = n.memory b) (hp : Planned sig p)
    (hlen : bytes.length = sig.args.length + 1) (hq : q ∈ p.placements) :
    contents m (n.x .sp) q.target = contents n (n.x .sp) q.target := by
  obtain ⟨-, htags, hbytes, hsize⟩ := hp.layout
  refine contents_congr ?_ ?_ ?_
  · intro i hi
    obtain ⟨-, hr1, -, hip1⟩ := reg_of_two_le (hp.target_intReg hq hi)
    exact h.x _ hr1 hip1
  · intro i _
    exact congrFun h.v (reg i)
  · intro b hb
    refine hmem b fun hstored => ?_
    rw [h.stored, hlen] at hstored
    cases ht : q.target with
    | stack offset =>
      have := hp.target_le hq ht
      rw [ht] at hb
      exact disjoint_span (n.x .sp) (.inl (by omega)) (by omega) (by omega) hb hstored
    | _ => rw [ht] at hb; cases hb

/-- The frame record shares no byte with what is stored after it. -/
theorem disjoint_record (hp : Planned sig p) {b : Address}
    (hb : b ∈ span (area + BitVec.ofNat 64 p.frame.recordOffset) 16) :
    b ∉ (p.placements.reverse.flatMap fun q => slot area q.target) ∧
      b ∉ span (area + BitVec.ofNat 64 p.frame.tagsOffset) (sig.args.length + 1) := by
  obtain ⟨hrecord, htags, hbytes, hsize⟩ := hp.layout
  constructor
  · intro hslots
    obtain ⟨q, hq, hbq⟩ := List.mem_flatMap.mp hslots
    rw [List.mem_reverse] at hq
    cases ht : q.target with
    | stack offset =>
      have := hp.target_le hq ht
      rw [ht] at hbq
      exact disjoint_span area (.inl (by omega)) (by omega) (by omega) hbq hb
    | _ => rw [ht] at hbq; cases hbq
  · intro hb'
    exact disjoint_span area (.inl (by omega)) (by omega) (by omega) hb hb'

/-- The machines between the parts of a stub: after the frame is entered, after the moves and after
the tag string is passed. -/
structure Parts (widen : BitVec 32 → BitVec 64) (p : Plan) (target : Target)
    (e e₁ e₃ e₅ : Machine) (touched₁ touched₃ touched₅ : List Touch) : Prop where
  entered : Entered p.frame e e₁ touched₁
  marshalled : Marshalled widen p.frame.size p.placements (e₁.set .r0 target.env.toBitVec) e₃
    touched₃
  passed : TagsPassed p.frame (tagBytes p.signature.args)
    (e₃.set .r0 target.function.toBitVec) e₅ touched₅
  memory_entered : ∀ b, b ∉ stored touched₁ → e₁.memory b = e.memory b
  memory_marshalled : ∀ b, b ∉ stored touched₃ → e₃.memory b = e₁.memory b
  memory_passed : ∀ b, b ∉ stored touched₅ → e₅.memory b = e₃.memory b

namespace Parts

variable {e₁ e₃ e₅ : Machine} {touched₁ touched₃ touched₅ : List Touch}

theorem x_eq (h : Parts widen p target e e₁ e₃ e₅ touched₁ touched₃ touched₅) {r : Reg}
    (hr0 : r ≠ .r0) (hr1 : r ≠ .r1) (hip0 : r ≠ .ip0) (hip1 : r ≠ .ip1) :
    (e₅.set .ip0 target.dispatcher.toBitVec).x r = e₃.x r := by
  rw [Machine.set_x, Function.update_of_ne hip0, h.passed.x r hr1 hip1, Machine.set_x,
    Function.update_of_ne hr0]

theorem sp_eq (h : Parts widen p target e e₁ e₃ e₅ touched₁ touched₃ touched₅) :
    (e₅.set .ip0 target.dispatcher.toBitVec).x .sp = e₁.x .sp := by
  rw [h.x_eq (by decide) (by decide) (by decide) (by decide), h.marshalled.sp_eq, Machine.set_x,
    Function.update_of_ne (by decide)]

theorem fp_eq (h : Parts widen p target e e₁ e₃ e₅ touched₁ touched₃ touched₅) :
    (e₅.set .ip0 target.dispatcher.toBitVec).x .fp = e₁.x .fp := by
  rw [h.x_eq (by decide) (by decide) (by decide) (by decide),
    h.marshalled.x .fp (by decide) fun _ _ i _ => (reg_ne_fp i).symm, Machine.set_x,
    Function.update_of_ne (by decide)]

theorem passed_sp (h : Parts widen p target e e₁ e₃ e₅ touched₁ touched₃ touched₅) :
    (e₃.set .r0 target.function.toBitVec).x .sp = e₁.x .sp := by
  rw [Machine.set_x, Function.update_of_ne (by decide), h.marshalled.sp_eq, Machine.set_x,
    Function.update_of_ne (by decide)]

theorem tags_eq (h : Parts widen p target e e₁ e₃ e₅ touched₁ touched₃ touched₅) :
    (e₅.set .ip0 target.dispatcher.toBitVec).x .r1 =
      e₁.x .sp + BitVec.ofNat 64 p.frame.tagsOffset := by
  rw [Machine.set_x, Function.update_of_ne (by decide), h.passed.pointer, h.passed_sp]

/-- Neither the moves nor the tag string reach the record. -/
theorem record_eq (h : Parts widen p target e e₁ e₃ e₅ touched₁ touched₃ touched₅)
    (hp : Planned p.signature p) {b : Address} (hb : b ∈ span (e₁.x .fp) 16) :
    e₅.memory b = e₁.memory b := by
  rw [h.entered.fp] at hb
  obtain ⟨hslots, htags⟩ := disjoint_record hp hb
  refine (h.memory_passed b ?_).trans (h.memory_marshalled b ?_)
  · rwa [h.passed.stored, length_tagBytes, h.passed_sp]
  · rw [h.marshalled.stored]
    exact hslots

theorem delivers (h : Parts widen p target e e₁ e₃ e₅ touched₁ touched₃ touched₅)
    (hp : Planned p.signature p) (hq : q ∈ p.placements) :
    Delivers widen q.tag (contents (e₁.set .r0 target.env.toBitVec)
      (e₁.x .sp + BitVec.ofNat 64 p.frame.size) q.source)
      (contents (e₅.set .ip0 target.dispatcher.toBitVec) (e₁.x .sp) q.target) := by
  have hkept : contents (e₅.set .ip0 target.dispatcher.toBitVec) (e₁.x .sp) q.target =
      contents e₃ (e₁.x .sp) q.target := by
    have htarget := h.passed.target_eq h.memory_passed hp (length_tagBytes _) hq
    rw [h.passed_sp] at htarget
    rw [contents_set fun i hi => (reg_of_two_le (hp.target_intReg hq hi)).2.2.1, htarget,
      contents_set fun i hi => (reg_of_two_le (hp.target_intReg hq hi)).1]
  rw [hkept]
  exact h.marshalled.delivers q hq

theorem called (h : Parts widen p target e e₁ e₃ e₅ touched₁ touched₃ touched₅)
    (hp : Planned p.signature p) :
    Called widen p target e (e₅.set .ip0 target.dispatcher.toBitVec)
      (touched₁ ++ touched₃ ++ touched₅) where
  dispatcher := by rw [Machine.set_x, Function.update_self]
  function := by
    rw [Machine.set_x, Function.update_of_ne (by decide), h.passed.x .r0 (by decide) (by decide),
      Machine.set_x, Function.update_self]
  env := h.delivers hp hp.environment_mem
  sp := h.sp_eq.trans h.entered.sp
  fp := by rw [h.fp_eq, h.sp_eq, h.entered.fp]
  tags := by rw [h.tags_eq, h.sp_eq]
  read_tags := by
    have hread := h.passed.read
    rw [length_tagBytes, h.passed_sp] at hread
    rw [h.tags_eq]
    exact hread
  saved_fp := by
    rw [h.fp_eq, ← h.entered.saved_fp]
    exact Memory.load_congr fun b hb => h.record_eq hp (mem_span_pair (.inl hb))
  saved_lr := by
    rw [h.fp_eq, ← h.entered.saved_lr]
    exact Memory.load_congr fun b hb => h.record_eq hp (mem_span_pair (.inr hb))
  delivers := by
    intro q hq h0
    have hd := h.delivers hp hq
    rwa [h.entered.source_eq h.memory_entered hp hq h0, ← h.sp_eq] at hd
  x := by
    intro r hr
    obtain ⟨hip0, hip1, hrfp, -, hrsp⟩ := hr.ne_of_frame
    have hr0 : r ≠ .r0 := hr.ne_reg 0
    rw [h.x_eq hr0 (hr.ne_reg 1) hip0 hip1, h.marshalled.x r hip1 fun _ _ i _ => hr.ne_reg i,
      Machine.set_x, Function.update_of_ne hr0, h.entered.x r hrsp hrfp hip1]
  v := by
    intro r hr
    rw [Machine.set_v, h.passed.v, Machine.set_v,
      h.marshalled.v r (hr.ne 0).2 fun _ _ i _ => (hr.ne i).1, Machine.set_v, h.entered.v]
  stored := by
    rw [stored_append, stored_append, h.entered.stored, h.marshalled.stored, h.passed.stored,
      h.fp_eq, h.tags_eq, h.sp_eq, length_tagBytes, h.passed_sp, Machine.set_x,
      Function.update_of_ne (by decide)]
  loaded := by
    intro b hb
    rw [loaded_append, loaded_append, h.entered.loaded, h.passed.loaded, List.nil_append,
      List.append_nil] at hb
    obtain ⟨q, hq, hbq⟩ := h.marshalled.loaded b hb
    rw [Machine.set_x, Function.update_of_ne (by decide), h.entered.sp,
      BitVec.sub_add_cancel] at hbq
    exact ⟨q, hq, hbq⟩

end Parts

section

variable {opening tags closing : List Instr} {moves : List (List Instr)}

variable (widen) in
theorem Sections.performAll_untilCall (hs : Sections p opening moves tags closing)
    (hp : Planned sig p) (target : Target) (hsp : e.IsBase .sp) :
    ∃ m touched, e.performAll widen (untilCall target opening moves.reverse.flatten tags) =
      some (m, touched) ∧ Called widen p target e m touched := by
  obtain ⟨-, -, hbytes, hsize⟩ := hp.layout
  have hencode := encode_tagString p.signature
  rw [hp.signature] at hencode
  obtain ⟨e₁, touched₁, hrun₁, h₁⟩ := enter_entered widen hp.frame hsp hs.opening
  have hsp₁ : e₁.IsBase .sp := isBase_sub hsp hp.frame.aligned h₁.sp
  have hrun₂ := e₁.performAll_loadFixed widen (by decide : Reg.r0 ≠ .sp) target.env
  have hclear : p.placements.Pairwise Clear := by
    rw [hp.placements]
    exact pairwise_placementsAfter [] sig.args
  obtain ⟨e₃, touched₃, hrun₃, h₃⟩ := moves_marshalled widen hs.moves
    (m := e₁.set .r0 target.env.toBitVec) (fun _ => hsp₁ rfl) hclear fun _ hq => hp.fits hq
  have hsp₃ : e₃.IsBase .sp := fun _ => by rw [h₃.sp_eq]; exact hsp₁ rfl
  have hrun₄ := e₃.performAll_loadFixed widen (by decide : Reg.r0 ≠ .sp) target.function
  obtain ⟨e₅, touched₅, hrun₅, h₅⟩ := passTags_passed widen hs.tags
    (m := e₃.set .r0 target.function.toBitVec) (fun _ => hsp₃ rfl) (by
      rw [hp.signature, hencode, length_tagBytes]
      omega)
  have hrun₆ := e₅.performAll_loadFixed widen (by decide : Reg.ip0 ≠ .sp) target.dispatcher
  rw [hp.signature, hencode] at h₅
  obtain rfl := hp.signature
  have hparts : Parts widen p target e e₁ e₃ e₅ touched₁ touched₃ touched₅ := {
    entered := h₁
    marshalled := h₃
    passed := h₅
    memory_entered := fun _ => Machine.memory_of_performAll hrun₁
    memory_marshalled := fun _ => Machine.memory_of_performAll hrun₃
    memory_passed := fun _ => Machine.memory_of_performAll hrun₅ }
  refine ⟨_, touched₁ ++ touched₃ ++ touched₅, ?_, hparts.called hp⟩
  have hrun := Machine.performAll_append widen (Machine.performAll_append widen
    (Machine.performAll_append widen (Machine.performAll_append widen
      (Machine.performAll_append widen hrun₁ hrun₂) hrun₃) hrun₄) hrun₅) hrun₆
  simpa only [untilCall, List.append_nil] using hrun

theorem Sections.length_le (hs : Sections p opening moves tags closing) (hp : Planned sig p)
    (target : Target) :
    (untilCall target opening moves.reverse.flatten tags ++
      Instr.blr .ip0 :: (passResult sig.ret ++ closing ++ [Instr.ret])).length ≤
      3 * sig.args.length + 5 * ((sig.args.length + 1) / 8 + (sig.args.length + 1) % 8) + 28 := by
  have hopening := length_enter_le hs.opening
  have hmoves := length_moves_le hs.moves
  have htags := length_passTags_le hs.tags
  have hresult := length_passResult_le sig.ret
  have hclosing := length_leave_le hs.closing
  rw [hp.placements, length_placementsAfter] at hmoves
  rw [encode_tagString, length_tagBytes, hp.signature] at htags
  simp only [untilCall, List.length_append, List.length_cons, List.length_nil, length_loadFixed]
  omega

/-- A stub is short enough for its words to have addresses of their own. -/
theorem Sections.length_lt (hs : Sections p opening moves tags closing) (hp : Planned sig p)
    (target : Target) :
    4 * (untilCall target opening moves.reverse.flatten tags ++
      Instr.blr .ip0 :: (passResult sig.ret ++ closing ++ [Instr.ret])).length < 2 ^ 64 := by
  have hlength := hs.length_le hp target
  have hargs := hp.length_args_lt
  omega

/-- The instructions of a stub around its call, and the machine at the call. -/
theorem called_of_assemble {words : List UInt32} (h : assemble sig target = .ok words)
    (widen : BitVec 32 → BitVec 64) (hsp : e.IsBase .sp) :
    ∃ p before closing m touched, plan sig = .ok p ∧ Planned sig p ∧
      leave p.frame = .ok closing ∧
      words = (before ++ Instr.blr .ip0 :: (passResult sig.ret ++ closing ++ [Instr.ret])).map
        Instr.word ∧
      4 * words.length < 2 ^ 64 ∧ e.performAll widen before = some (m, touched) ∧
      Called widen p target e m touched := by
  obtain ⟨p, opening, moves, tags, closing, hplan, hp, hs, hwords⟩ := sections_of_assemble h
  have hlength := hs.length_lt hp target
  rw [← List.length_map (f := Instr.word), ← hwords] at hlength
  obtain ⟨m, touched, hrun, hcalled⟩ := hs.performAll_untilCall widen hp target hsp
  exact ⟨p, _, closing, m, touched, hplan, hp, hs.closing, hwords, hlength, hrun, hcalled⟩

end

end

end Stub

end NativeBridge
