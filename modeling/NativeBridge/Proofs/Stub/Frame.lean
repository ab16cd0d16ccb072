import NativeBridge.Proofs.Arm64.Operands
import NativeBridge.Proofs.Call.Convention
import NativeBridge.Stub

/-! # Entering and leaving the frame

Whatever the shape of the frame, entering it moves the stack pointer down by its size, saves the
frame pointer and the link register in the record above the outgoing arguments, and points the
frame pointer there. Leaving it restores both and moves the stack pointer back.
-/

namespace NativeBridge

namespace Arm64.Machine

def saving (m : Machine) (a : Address) : Machine :=
  (m.storing a 8 (m.x .fp)).storing (a + 8) 8 (m.x .lr)

def restoring (m : Machine) (a : Address) : Machine :=
  (m.set .fp (m.memory.load a 8)).set .lr (m.memory.load (a + 8) 8)

@[simp] theorem saving_x (m : Machine) (a : Address) : (m.saving a).x = m.x := rfl

theorem restoring_x_of_ne (m : Machine) (a : Address) {r : Reg} (hfp : r ≠ .fp) (hlr : r ≠ .lr) :
    (m.restoring a).x r = m.x r :=
  (Function.update_of_ne hlr ..).trans (Function.update_of_ne hfp ..)

theorem restoring_fp (m : Machine) (a : Address) :
    (m.restoring a).x .fp = m.memory.load a 8 := by
  rw [restoring, set_x, Function.update_of_ne (by decide), set_x, Function.update_self]

theorem restoring_lr (m : Machine) (a : Address) :
    (m.restoring a).x .lr = m.memory.load (a + 8) 8 := by
  rw [restoring, set_x, Function.update_self]

theorem load_saving_lr (m : Machine) (a : Address) :
    (m.saving a).memory.load (a + 8) 8 = m.x .lr := by
  rw [saving, storing_memory, Memory.load_store_self]

theorem load_saving_fp (m : Machine) (a : Address) : (m.saving a).memory.load a 8 = m.x .fp := by
  have hdisjoint : (span a 8 ++ span (a + BitVec.ofNat 64 8) 8).Nodup := by
    rw [← span_add]
    exact nodup_span a (by decide)
  have hkept : (m.saving a).memory.load a 8 = (m.storing a 8 (m.x .fp)).memory.load a 8 :=
    Memory.load_congr fun b hb =>
      Memory.store_of_not_mem (List.disjoint_of_nodup_append hdisjoint hb) (by decide)
  rw [hkept, storing_memory, Memory.load_store_self]

variable (widen : BitVec 32 → BitVec 64) {m : Machine} {i : Instr} {base : Reg} {offset : Int}

theorem perform_stpBefore (h : pair .stpBefore .fp .lr .sp offset = .ok i) (hsp : m.IsBase .sp) :
    m.perform widen i = some ((m.saving (m.x .sp + BitVec.ofInt 64 offset)).set .sp
      (m.x .sp + BitVec.ofInt 64 offset),
      (span (m.x .sp + BitVec.ofInt 64 offset) 16).map .store) := by
  rw [perform_pair widen h hsp (by decide)]
  rfl

theorem perform_stp (h : pair .stp .fp .lr base offset = .ok i) (hb : m.IsBase base) :
    m.perform widen i = some (m.saving (m.x base + BitVec.ofInt 64 offset),
      (span (m.x base + BitVec.ofInt 64 offset) 16).map .store) := by
  rw [perform_pair widen h hb
    (by simp [PairAccess.Clashes, PairAccess.isLoad, PairAccess.movesBase])]
  rfl

theorem perform_ldp (h : pair .ldp .fp .lr base offset = .ok i) (hb : m.IsBase base) :
    m.perform widen i = some (m.restoring (m.x base + BitVec.ofInt 64 offset),
      (span (m.x base + BitVec.ofInt 64 offset) 16).map .load) := by
  rw [perform_pair widen h hb (by simp [PairAccess.Clashes, PairAccess.movesBase]; decide)]
  rfl

theorem perform_ldpAfter (h : pair .ldpAfter .fp .lr .sp offset = .ok i) (hsp : m.IsBase .sp) :
    m.perform widen i = some ((m.restoring (m.x .sp)).set .sp (m.x .sp + BitVec.ofInt 64 offset),
      (span (m.x .sp) 16).map .load) := by
  rw [perform_pair widen h hsp (by decide)]
  rfl

end Arm64.Machine

namespace Stub

open Arm64 Call

/-- What entering a frame does. -/
structure Entered (f : Frame) (m m' : Machine) (touched : List Touch) : Prop where
  sp : m'.x .sp = m.x .sp - BitVec.ofNat 64 f.size
  fp : m'.x .fp = m'.x .sp + BitVec.ofNat 64 f.recordOffset
  x : ∀ r, r ≠ .sp → r ≠ .fp → r ≠ .ip1 → m'.x r = m.x r
  v : m'.v = m.v
  saved_fp : m'.memory.load (m'.x .fp) 8 = m.x .fp
  saved_lr : m'.memory.load (m'.x .fp + 8) 8 = m.x .lr
  stored : stored touched = span (m'.x .fp) 16
  loaded : loaded touched = []

/-- What leaving a frame does. -/
structure Left (f : Frame) (m m' : Machine) (touched : List Touch) : Prop where
  sp : m'.x .sp = m.x .sp + BitVec.ofNat 64 f.size
  fp : m'.x .fp = m.memory.load (m.x .sp + BitVec.ofNat 64 f.recordOffset) 8
  lr : m'.x .lr = m.memory.load (m.x .sp + BitVec.ofNat 64 f.recordOffset + 8) 8
  x : ∀ r, r ≠ .sp → r ≠ .fp → r ≠ .lr → r ≠ .ip1 → m'.x r = m.x r
  v : m'.v = m.v
  stored : stored touched = []
  loaded : loaded touched = span (m.x .sp + BitVec.ofNat 64 f.recordOffset) 16

theorem isBase_sub {m m' : Machine} {size : Nat} (hsp : m.IsBase .sp) (hsize : size % 16 = 0)
    (h : m'.x .sp = m.x .sp - BitVec.ofNat 64 size) : m'.IsBase .sp := by
  intro _
  have haligned := hsp rfl
  rw [h, BitVec.toNat_sub, BitVec.toNat_ofNat]
  omega

variable (widen : BitVec 32 → BitVec 64) {m : Machine} {f : Frame} {outgoing tagBytes : Nat}
  {is : List Instr}

/-- The frame pointer is set once the record is saved: from there on the shapes agree. -/
theorem entered_of_saving {n m' : Machine} {a : Address}
    (hn : n.x .fp = m.x .fp ∧ n.x .lr = m.x .lr)
    (hx : ∀ r, r ≠ .sp → r ≠ .fp → r ≠ .ip1 → n.x r = m.x r) (hv : n.v = m.v)
    (hsp : m'.x .sp = m.x .sp - BitVec.ofNat 64 f.size)
    (ha : a = m'.x .sp + BitVec.ofNat 64 f.recordOffset)
    (hfp : m'.x .fp = a) (hx' : ∀ r, r ≠ .sp → r ≠ .fp → m'.x r = n.x r) (hv' : m'.v = n.v)
    (hmem : m'.memory = (n.saving a).memory) :
    Entered f m m' ((span a 16).map .store) where
  sp := hsp
  fp := hfp.trans ha
  x := fun r h31 h29 h17 => (hx' r h31 h29).trans (hx r h31 h29 h17)
  v := hv'.trans hv
  saved_fp := by rw [hmem, hfp, Machine.load_saving_fp, hn.1]
  saved_lr := by rw [hmem, hfp, Machine.load_saving_lr, hn.2]
  stored := by rw [stored_map_store, hfp]
  loaded := loaded_map_store _

theorem enter_preIndexed (hf : f.Holds outgoing tagBytes) (hshape : f.shape = .preIndexed)
    (hsp : m.IsBase .sp) (h : enter f = .ok is) :
    ∃ m' touched, m.performAll widen is = some (m', touched) ∧ Entered f m m' touched := by
  rw [enter, hshape] at h
  obtain ⟨store, hstore, h⟩ := Checked.bind_eq_ok_iff.mp h
  obtain ⟨point, hpoint, h⟩ := Checked.bind_eq_ok_iff.mp h
  obtain rfl := Checked.pure_eq_ok_iff.mp h
  refine ⟨_, _, Machine.performAll_pair (Machine.perform_stpBefore widen hstore hsp)
    (Machine.perform_add widen hpoint), ?_⟩
  have hdown : m.x .sp + BitVec.ofInt 64 (-f.size) = m.x .sp - BitVec.ofNat 64 f.size := by
    rw [BitVec.ofInt_neg, BitVec.ofInt_natCast, BitVec.sub_eq_add_neg]
  rw [List.append_nil, hdown]
  refine entered_of_saving (n := m) ⟨rfl, rfl⟩ (fun _ _ _ _ => rfl) rfl ?_ ?_ ?_ ?_ rfl rfl
  · simp [Reg.sp, Reg.fp]
  · simp [Reg.sp, Reg.fp, Frame.recordOffset, hf.of_preIndexed hshape]
  · simp [Reg.sp, Reg.fp]
  · intro r h31 h29
    simp [h31, h29]

theorem enter_split (hf : f.Holds outgoing tagBytes) (hshape : f.shape = .split)
    (hsp : m.IsBase .sp) (h : enter f = .ok is) :
    ∃ m' touched, m.performAll widen is = some (m', touched) ∧ Entered f m m' touched := by
  rw [enter, hshape] at h
  obtain ⟨move, hmove, h⟩ := Checked.bind_eq_ok_iff.mp h
  have hdown := Machine.performAll_wide widen (m := m) hmove
  rw [Arith.apply] at hdown
  have hbase : (m.set .sp (m.x .sp - BitVec.ofNat 64 f.size)).IsBase .sp :=
    isBase_sub hsp hf.aligned (by simp)
  split at h
  · obtain ⟨store, hstore, h⟩ := Checked.bind_eq_ok_iff.mp h
    obtain ⟨point, hpoint, h⟩ := Checked.bind_eq_ok_iff.mp h
    obtain rfl := Checked.pure_eq_ok_iff.mp h
    refine ⟨_, _, Machine.performAll_append widen hdown (Machine.performAll_pair
      (Machine.perform_stp widen hstore hbase) (Machine.perform_add widen hpoint)), ?_⟩
    rw [List.append_nil, List.nil_append, BitVec.ofInt_natCast]
    refine entered_of_saving (n := m.set .sp (m.x .sp - BitVec.ofNat 64 f.size)) ?_ ?_ rfl ?_ ?_ ?_
      ?_ rfl rfl
    · simp [Reg.sp, Reg.fp, Reg.lr]
    · intro r h31 _ _
      simp [h31]
    · simp [Reg.sp, Reg.fp]
    · simp [Reg.sp, Reg.fp]
    · simp [Reg.sp, Reg.fp]
    · intro r h31 h29
      simp [h29]
  · obtain ⟨reach, hreach, h⟩ := Checked.bind_eq_ok_iff.mp h
    obtain ⟨store, hstore, h⟩ := Checked.bind_eq_ok_iff.mp h
    obtain ⟨point, hpoint, h⟩ := Checked.bind_eq_ok_iff.mp h
    obtain rfl := Checked.pure_eq_ok_iff.mp h
    have hip1 := Machine.performAll_wide widen
      (m := m.set .sp (m.x .sp - BitVec.ofNat 64 f.size)) hreach
    refine ⟨_, _, Machine.performAll_append widen (Machine.performAll_append widen hdown hip1)
      (Machine.performAll_pair (Machine.perform_stp widen hstore ?_)
        (Machine.perform_add widen hpoint)), ?_⟩
    · intro hip
      exact absurd hip (by decide)
    rw [List.append_nil, List.append_nil, List.nil_append,
      show BitVec.ofInt 64 0 = 0#64 from rfl, BitVec.add_zero]
    refine entered_of_saving (n := (m.set .sp (m.x .sp - BitVec.ofNat 64 f.size)).set .ip1 _) ?_ ?_
      rfl ?_ ?_ ?_ ?_ rfl rfl
    · simp [Reg.sp, Reg.fp, Reg.lr, Reg.ip1]
    · intro r h31 _ h17
      simp [h31, h17]
    · simp [Reg.sp, Reg.fp, Reg.ip1]
    · simp [Reg.sp, Reg.fp, Reg.ip1, Arith.apply]
    · simp [Reg.sp, Reg.fp, Reg.ip1]
    · intro r h31 h29
      simp [h29]

theorem enter_entered (hf : f.Holds outgoing tagBytes) (hsp : m.IsBase .sp)
    (h : enter f = .ok is) :
    ∃ m' touched, m.performAll widen is = some (m', touched) ∧ Entered f m m' touched := by
  cases hshape : f.shape with
  | preIndexed => exact enter_preIndexed widen hf hshape hsp h
  | split => exact enter_split widen hf hshape hsp h

theorem left_of_restoring {n m' : Machine} {a : Address}
    (ha : a = m.x .sp + BitVec.ofNat 64 f.recordOffset)
    (hn : n = m ∨ ∃ value, n = m.set .ip1 value)
    (hsp : m'.x .sp = m.x .sp + BitVec.ofNat 64 f.size)
    (hx : ∀ r, r ≠ .sp → m'.x r = (n.restoring a).x r) (hv : m'.v = n.v) :
    Left f m m' ((span a 16).map .load) := by
  have hmem : n.memory = m.memory := by
    rcases hn with rfl | ⟨value, rfl⟩ <;> rfl
  have hnx : ∀ r, r ≠ .ip1 → n.x r = m.x r := by
    rcases hn with rfl | ⟨value, rfl⟩
    · exact fun _ _ => rfl
    · exact fun r hr => Function.update_of_ne hr ..
  exact {
    sp := hsp
    fp := by rw [hx _ (by decide), Machine.restoring_fp, hmem, ha]
    lr := by rw [hx _ (by decide), Machine.restoring_lr, hmem, ha]
    x := fun r h31 h29 h30 h17 => by
      rw [hx r h31, Machine.restoring_x_of_ne _ _ h29 h30, hnx r h17]
    v := hv.trans (by rcases hn with rfl | ⟨value, rfl⟩ <;> rfl)
    stored := stored_map_load _
    loaded := by rw [loaded_map_load, ha] }

theorem leave_left (hf : f.Holds outgoing tagBytes) (hsp : m.IsBase .sp) (h : leave f = .ok is) :
    ∃ m' touched, m.performAll widen is = some (m', touched) ∧ Left f m m' touched := by
  unfold leave at h
  split at h
  · next hshape =>
    obtain ⟨load, hload, h⟩ := Checked.bind_eq_ok_iff.mp h
    obtain rfl := Checked.pure_eq_ok_iff.mp h
    refine ⟨_, _, (Machine.performAll_singleton ..).trans
      (Machine.perform_ldpAfter widen hload hsp), ?_⟩
    rw [BitVec.ofInt_natCast]
    refine left_of_restoring (n := m) ?_ (.inl rfl) ?_ ?_ rfl
    · simp [Frame.recordOffset, hf.of_preIndexed hshape]
    · simp
    · intro r hr
      simp [hr]
  · split at h
    · obtain ⟨load, hload, h⟩ := Checked.bind_eq_ok_iff.mp h
      obtain ⟨up, hup, h⟩ := Checked.bind_eq_ok_iff.mp h
      obtain rfl := Checked.pure_eq_ok_iff.mp h
      refine ⟨_, _, Machine.performAll_cons (Machine.perform_ldp widen hload hsp)
        (Machine.performAll_wide widen hup), ?_⟩
      rw [List.append_nil, BitVec.ofInt_natCast, Arith.apply,
        Machine.restoring_x_of_ne _ _ (by decide) (by decide)]
      refine left_of_restoring (n := m) rfl (.inl rfl) ?_ ?_ rfl
      · simp
      · intro r hr
        simp [hr]
    · obtain ⟨reach, hreach, h⟩ := Checked.bind_eq_ok_iff.mp h
      obtain ⟨load, hload, h⟩ := Checked.bind_eq_ok_iff.mp h
      obtain ⟨up, hup, h⟩ := Checked.bind_eq_ok_iff.mp h
      obtain rfl := Checked.pure_eq_ok_iff.mp h
      refine ⟨_, _, Machine.performAll_append widen (Machine.performAll_wide widen hreach)
        (Machine.performAll_cons (Machine.perform_ldp widen hload ?_)
          (Machine.performAll_wide widen hup)), ?_⟩
      · intro hip
        exact absurd hip (by decide)
      rw [List.append_nil, List.nil_append, show BitVec.ofInt 64 0 = 0#64 from rfl, BitVec.add_zero,
        Arith.apply, Machine.restoring_x_of_ne _ _ (by decide) (by decide)]
      refine left_of_restoring (n := m.set .ip1 (m.x .sp + BitVec.ofNat 64 f.recordOffset)) ?_
        (.inr ⟨_, rfl⟩) ?_ ?_ rfl
      · simp
      · simp [Reg.sp, Reg.ip1, Arith.apply]
      · intro r hr
        simp [hr]

end Stub

end NativeBridge
