import NativeBridge.Proofs.Arm64.Execution
import NativeBridge.Proofs.Stub.Called

/-! # Footprint and return

Before the call a stub fills its frame from the bottom with the outgoing arguments, the frame
record and the tag string, each byte once, and loads what arrives on the stack. After the call it
loads the record back, and returns with the caller's registers and the dispatcher's result.
-/

namespace NativeBridge

namespace Stub

open Arm64 Call

/-- The slots of consecutive arguments stand side by side. -/
theorem flatMap_slot_placementsAfter (area : Address) (earlier args : List Tag) :
    ∃ count, spilled reservedInts (earlier ++ args) = spilled reservedInts earlier + count ∧
      (placementsAfter earlier args).flatMap (fun q => slot area q.target) =
        span (area + BitVec.ofNat 64 (8 * spilled reservedInts earlier)) (8 * count) := by
  induction args generalizing earlier with
  | nil => exact ⟨0, by rw [List.append_nil, Nat.add_zero], rfl⟩
  | cons tag args ih =>
    obtain ⟨count, hspilled, hslots⟩ := ih (earlier ++ [tag])
    rw [List.append_assoc, List.singleton_append, spilled_snoc] at hspilled
    rw [spilled_snoc] at hslots
    rw [placementsAfter, List.flatMap_cons, hslots]
    cases hloc : location reservedInts earlier tag with
    | stack offset =>
      obtain rfl := (stack_slot [] hloc).1
      rw [hloc] at hspilled
      refine ⟨count + 1, by simp [Location.isStack] at hspilled; omega, ?_⟩
      rw [show 8 * (count + 1) = 8 + 8 * count by omega, span_add, ← incoming]
      rfl
    | intReg r | floatReg r =>
      rw [hloc] at hspilled
      exact ⟨count, hspilled, rfl⟩

/-- The bytes that a stub touches before the call: `size` bytes are the frame's, the outgoing
arguments at the stack pointer, the record at the frame pointer, the tag string at register 1. -/
structure Footprint (sig : Signature) (size : Nat) (e m : Machine) (touched : List Touch) :
    Prop where
  stored : (stored touched).Perm (span (m.x .sp) (8 * spilled reservedInts sig.args) ++
    span (m.x .fp) 16 ++ span (m.x .r1) (sig.args.length + 1))
  nodup : (Arm64.stored touched).Nodup
  inFrame : ∀ b ∈ Arm64.stored touched, b ∈ span (e.x .sp - BitVec.ofNat 64 size) size
  loaded : ∀ b ∈ loaded touched, ∃ earlier tag later offset, sig.args = earlier ++ tag :: later ∧
    location 0 earlier tag = .stack offset ∧ b ∈ span (e.x .sp + BitVec.ofNat 64 offset) 8

variable {widen : BitVec 32 → BitVec 64} {sig : Signature} {p : Plan} {target : Target}
  {e m back : Machine} {touched : List Touch}

theorem Called.footprint (h : Called widen p target e m touched) (hp : Planned sig p) :
    Footprint sig p.frame.size e m touched := by
  obtain ⟨hrecord, htags, hbytes, hsize⟩ := hp.layout
  have houtgoing := hp.frame.outgoing
  obtain ⟨count, hspilled, hslots⟩ := flatMap_slot_placementsAfter (m.x .sp) [] sig.args
  have hnil : spilled reservedInts [] = 0 := rfl
  rw [List.nil_append, hnil, Nat.zero_add] at hspilled
  subst hspilled
  replace hslots : (p.placements.flatMap fun q => slot (m.x .sp) q.target) =
      span (m.x .sp) (8 * spilled reservedInts sig.args) := by
    rw [hp.placements, hslots]
    exact congrArg (span · _) (BitVec.add_zero _)
  have hperm : (Arm64.stored touched).Perm (span (m.x .sp) (8 * spilled reservedInts sig.args) ++
      span (m.x .fp) 16 ++ span (m.x .r1) (sig.args.length + 1)) := by
    rw [h.stored, hp.signature, ← hslots]
    refine List.Perm.append_right _ (List.perm_append_comm.trans (List.Perm.append_right _ ?_))
    exact (List.reverse_perm _).flatMap_right _
  -- the three parts are the bytes from the stack pointer to the end of the tag string
  have hspan : span (m.x .sp) (8 * spilled reservedInts sig.args) ++ span (m.x .fp) 16 ++
      span (m.x .r1) (sig.args.length + 1) =
      span (m.x .sp) (p.frame.outgoing + 16 + (sig.args.length + 1)) := by
    rw [span_add _ (p.frame.outgoing + 16), span_add _ p.frame.outgoing, h.fp, h.tags, hrecord,
      htags, houtgoing]
  refine ⟨hperm, ?_, ?_, ?_⟩
  · rw [hperm.nodup_iff, hspan]
    exact nodup_span _ (by omega)
  · intro b hb
    rw [hperm.mem_iff, hspan, mem_span (by omega)] at hb
    rw [← h.sp, mem_span (by omega)]
    omega
  · intro b hb
    obtain ⟨q, hq, hbq⟩ := h.loaded b hb
    obtain ⟨earlier, tag, later, hargs, rfl⟩ := hp.mem_placements_iff.mp hq
    cases hloc : location 0 earlier tag with
    | stack offset =>
      simp only [hloc] at hbq
      exact ⟨earlier, tag, later, offset, hargs, hloc, hbq⟩
    | _ => simp [hloc, slot] at hbq

/-- What a call keeps of a machine: the caller's registers and the frame record. -/
structure Kept (m back : Machine) : Prop where
  sp : back.x .sp = m.x .sp
  x : ∀ r, IsSaved r → back.x r = m.x r
  v : ∀ r, IsSavedVector r → back.double r = m.double r
  record : ∀ b ∈ span (m.x .fp) 16, back.memory b = m.memory b

/-- A machine at the return, for machines on entry and after the call. -/
structure Returning (ret : Tag) (e back last : Machine) : Prop where
  sp : last.x .sp = e.x .sp
  fp : last.x .fp = e.x .fp
  lr : last.x .lr = e.x .lr
  x : ∀ r, IsSaved r → last.x r = e.x r
  v : ∀ r, IsSavedVector r → last.v r = back.v r
  double : ∀ r, IsSavedVector r → last.double r = e.double r
  result : last.x .r0 = back.x .r0
  float : ret = .float → (last.v .r0).setWidth 32 = (back.x .r0).setWidth 32
  double_result : ret = .double → last.double .r0 = back.x .r0

theorem performAll_passResult (widen : BitVec 32 → BitVec 64) (back : Machine) (ret : Tag) :
    ∃ n, back.performAll widen (passResult ret) = some (n, []) ∧ n.x = back.x ∧
      n.memory = back.memory ∧ (∀ r, r ≠ .r0 → n.v r = back.v r) ∧
      (ret = .float → (n.v .r0).setWidth 32 = (back.x .r0).setWidth 32) ∧
      (ret = .double → n.double .r0 = back.x .r0) := by
  cases ret with
  | float =>
    refine ⟨_, rfl, rfl, rfl, fun r hr => Function.update_of_ne hr .., fun _ => ?_,
      nofun⟩
    rw [low_putVector, setWidth_low]
    rfl
  | double =>
    refine ⟨_, rfl, rfl, rfl, fun r hr => Function.update_of_ne hr .., nofun,
      fun _ => ?_⟩
    rw [double_putVector]
    rfl
  | _ => exact ⟨back, rfl, rfl, rfl, fun _ _ => rfl, nofun, nofun⟩

theorem Called.returning {closing : List Instr} (h : Called widen p target e m touched)
    (hp : Planned sig p) (hentry : e.IsBase .sp) (hclosing : leave p.frame = .ok closing)
    (hkept : Kept m back) : ∃ last rest,
      back.performAll widen (passResult sig.ret ++ closing) = some (last, rest) ∧
        Returning sig.ret e back last ∧ Arm64.stored rest = [] ∧
        Arm64.loaded rest = span (m.x .fp) 16 := by
  obtain ⟨n, hn, hx, hmemory, hv, hfloat, hdouble⟩ := performAll_passResult widen back sig.ret
  have hsp : n.x .sp = m.x .sp := by rw [hx, hkept.sp]
  have hrecord : ∀ b ∈ span (m.x .fp) 16, n.memory b = m.memory b := by
    intro b hb
    rw [hmemory, hkept.record b hb]
  have hbase : n.IsBase .sp := fun _ => by
    rw [hsp]
    exact isBase_sub hentry hp.frame.aligned h.sp rfl
  obtain ⟨last, rest, hlast, hleft⟩ := leave_left widen hp.frame hbase hclosing
  have hfp : n.x .sp + BitVec.ofNat 64 p.frame.recordOffset = m.x .fp := by rw [hsp, h.fp]
  have hvector : ∀ r, IsSavedVector r → last.v r = back.v r := by
    intro r hr
    rw [hleft.v, hv r (hr.ne 0).1]
  refine ⟨last, rest, Machine.performAll_append widen hn hlast, ?_, hleft.stored, ?_⟩
  · exact {
      sp := by rw [hleft.sp, hsp, h.sp, BitVec.sub_add_cancel]
      fp := by
        rw [hleft.fp, hfp, ← h.saved_fp]
        exact Memory.load_congr fun b hb => hrecord b (mem_span_pair (.inl hb))
      lr := by
        rw [hleft.lr, hfp, ← h.saved_lr]
        exact Memory.load_congr fun b hb => hrecord b (mem_span_pair (.inr hb))
      x := by
        intro r hr
        obtain ⟨-, hip1, hrfp, hlr, hrsp⟩ := hr.ne_of_frame
        rw [hleft.x r hrsp hrfp hlr hip1, hx, hkept.x r hr, h.x r hr]
      v := hvector
      double := by
        intro r hr
        rw [Machine.double, hvector r hr, ← Machine.double, hkept.v r hr, Machine.double, h.v r hr,
          ← Machine.double]
      result := by rw [hleft.x _ (by decide) (by decide) (by decide) (by decide), hx]
      float := by rwa [hleft.v]
      double_result := by rwa [Machine.double, hleft.v] }
  · rw [hleft.loaded, hfp]

theorem runs_in_frame {words : List UInt32} (h : assemble sig target = .ok words)
    (widen : BitVec 32 → BitVec 64) (base : Address) (hsp : (e.x .sp).toNat % 16 = 0) :
    ∃ p before after m touched, plan sig = .ok p ∧
      words = before ++ (Instr.blr .ip0).word :: after ∧
      Code.Runs widen ⟨base, words⟩ ⟨base, e⟩ touched
        ⟨base + BitVec.ofNat 64 (4 * before.length), m⟩ ∧
      Footprint sig p.frame.size e m touched ∧
      m.memory.load (m.x .fp) 8 = e.x .fp ∧ m.memory.load (m.x .fp + 8) 8 = e.x .lr ∧
      (∀ r, IsSaved r → m.x r = e.x r) ∧ (∀ r, IsSavedVector r → m.v r = e.v r) ∧
      ∀ back, Kept m back → ∃ pc last rest,
        Code.Runs widen ⟨base, words⟩ ⟨base + BitVec.ofNat 64 (4 * before.length) + 4, back⟩ rest
          ⟨pc, last⟩ ∧
        Code.instr? ⟨base, words⟩ pc = some .ret ∧
        Code.step widen ⟨base, words⟩ ⟨pc, last⟩ = some (⟨e.x .lr, last⟩, []) ∧
        Returning sig.ret e back last ∧
        Arm64.stored rest = [] ∧ Arm64.loaded rest = span (m.x .fp) 16 := by
  have hentry : e.IsBase .sp := fun _ => hsp
  obtain ⟨p, before, closing, m, touched, hplan, hp, hleave, hwords, hlength, hrun, hcalled⟩ :=
    called_of_assemble h widen hentry
  refine ⟨p, _, _, m, touched, hplan, by rw [hwords, List.map_append, List.map_cons], ?_,
    hcalled.footprint hp, hcalled.saved_fp, hcalled.saved_lr, hcalled.x, hcalled.v, ?_⟩
  · rw [List.length_map]
    exact Code.runs_from_base (c := ⟨base, words⟩) _ hwords hlength hrun
  · intro back hkept
    obtain ⟨last, rest, hlast, hreturning, hstored, hloaded⟩ :=
      hcalled.returning hp hentry hleave hkept
    rw [List.length_map]
    have hsplit : words = (before ++ [Instr.blr .ip0] ++ (passResult sig.ret ++ closing) ++
        [Instr.ret]).map Instr.word := by
      rw [hwords]
      simp
    have hruns := Code.runs_of_performAll (c := ⟨base, words⟩) (before ++ [Instr.blr .ip0]) _ _
      hsplit hlength hlast
    have hret := Code.instr?_place (c := ⟨base, words⟩) [] hsplit hlength
    rw [List.length_append, List.length_singleton, ← Code.place_succ] at hruns
    refine ⟨_, last, rest, hruns, hret, ?_, hreturning, hstored, hloaded⟩
    rw [Code.step, hret, ← hreturning.lr]
    rfl

theorem kept_set (m : Machine) (value : BitVec 64) : Kept m (m.set .r0 value) where
  sp := by rw [Machine.set_x, Function.update_of_ne (by decide)]
  x := fun _ hr => Function.update_of_ne (hr.ne_reg 0) ..
  v := fun _ _ => rfl
  record := fun _ _ => rfl

/-- Seventy long integers put the frame record out of a pair's reach from the stack pointer. -/
theorem runs_in_frame_far : ∃ words pc pc' m last touched rest,
    assemble ⟨.pointer :: .pointer :: List.replicate 70 .long, .double⟩ ⟨1, 2, 3⟩ = .ok words ∧
    Code.Runs (BitVec.setWidth 64) ⟨0x1000, words⟩
      ⟨0x1000, ⟨fun r => BitVec.ofNat 64 (0x8000 + 16 * r.val), fun _ => 9, fun _ => 0⟩⟩
      touched ⟨pc, m⟩ ∧
    (Arm64.stored touched).Nodup ∧
    Code.Runs (BitVec.setWidth 64) ⟨0x1000, words⟩ ⟨pc + 4, m.set .r0 42⟩ rest ⟨pc', last⟩ ∧
    Code.instr? ⟨0x1000, words⟩ pc' = some .ret ∧
    last.x .lr = 0x81E0 ∧ last.x .sp = 0x81F0 ∧ last.x .r0 = 42 ∧ last.double .r0 = 42 := by
  obtain ⟨words, h⟩ : ∃ words, assemble ⟨.pointer :: .pointer :: List.replicate 70 .long, .double⟩
    ⟨1, 2, 3⟩ = .ok words := Checked.exists_ok_of_isOk (by decide +kernel)
  obtain ⟨p, before, after, m, touched, -, -, hruns, hfootprint, -, -, -, -, hback⟩ :=
    runs_in_frame h (BitVec.setWidth 64) 0x1000
      (e := ⟨fun r => BitVec.ofNat 64 (0x8000 + 16 * r.val), fun _ => 9, fun _ => 0⟩) (by decide)
  obtain ⟨pc, last, rest, hruns', hret, -, hlast, -, -⟩ := hback _ (kept_set m 42)
  have hresult : (m.set .r0 42).x .r0 = 42 := by rw [Machine.set_x, Function.update_self]
  exact ⟨words, _, pc, m, last, touched, rest, h, hruns, hfootprint.nodup, hruns', hret, hlast.lr,
    hlast.sp, hlast.result.trans hresult, (hlast.double_result rfl).trans hresult⟩

end Stub

end NativeBridge
