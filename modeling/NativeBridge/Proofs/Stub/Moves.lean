import NativeBridge.Proofs.Arm64.Operands
import NativeBridge.Proofs.Call.Convention
import NativeBridge.Stub

/-! # Moving arguments

A move takes one argument from where it arrives to where it is passed on, and changes nothing else
but the scratch registers. Moves that are made from the last argument to the first deliver every
argument.
-/

namespace NativeBridge.Stub

open Arm64 Call

/-- The 64 bits at a location, with stack locations counted from `area`. -/
def contents (m : Machine) (area : Address) : Location → BitVec 64
  | .intReg r => m.x (reg r)
  | .floatReg r => m.double (reg r)
  | .stack offset => m.memory.load (area + BitVec.ofNat 64 offset) 8

def slot (area : Address) : Location → List Address
  | .stack offset => span (area + BitVec.ofNat 64 offset) 8
  | _ => []

/-- Whether a value may stand for the value passed: single precision is widened, the high half of
a narrow integer is free, and nothing else changes. -/
def Delivers (widen : BitVec 32 → BitVec 64) (tag : Tag) (passed delivered : BitVec 64) : Prop :=
  match tag with
  | .float => delivered = widen (passed.setWidth 32)
  | .pointer | .long | .ulong | .double => delivered = passed
  | _ => delivered.setWidth 32 = passed.setWidth 32

variable {widen : BitVec 32 → BitVec 64}

theorem delivers_of_eq {tag : Tag} {passed delivered : BitVec 64} (hf : tag ≠ .float)
    (h : delivered = passed) : Delivers widen tag passed delivered := by
  subst h
  cases tag with
  | float => exact absurd rfl hf
  | _ => rfl

theorem delivers_of_low_eq {tag : Tag} {passed delivered : BitVec 64} (hf : tag ≠ .float)
    (hw : tag.isWide = false) (h : delivered.setWidth 32 = passed.setWidth 32) :
    Delivers widen tag passed delivered := by
  cases tag with
  | float => exact absurd rfl hf
  | pointer | long | ulong | double => cases hw
  | _ => exact h

theorem reg_ne_sp (r : Fin 8) : reg r ≠ .sp := by
  revert r; decide

theorem reg_ne_fp (r : Fin 8) : reg r ≠ .fp := by
  revert r; decide

theorem reg_ne_ip1 (r : Fin 8) : reg r ≠ .ip1 := by
  revert r; decide

theorem reg_ne_vectorScratch (r : Fin 8) : reg r ≠ .vectorScratch := by
  revert r; decide

theorem reg_inj {r r' : Fin 8} : reg r = reg r' ↔ r = r' := by
  simp [reg, Fin.ext_iff]

/-- What a move does: `size` bytes lie between the stack pointer and the arguments that arrive. -/
structure Moved (widen : BitVec 32 → BitVec 64) (size : Nat) (p : Placement) (m m' : Machine)
    (touched : List Touch) : Prop where
  delivers : Delivers widen p.tag (contents m (m.x .sp + BitVec.ofNat 64 size) p.source)
    (contents m' (m.x .sp) p.target)
  x : ∀ r, r ≠ .ip1 → (∀ i, p.target = .intReg i → r ≠ reg i) → m'.x r = m.x r
  v : ∀ r, r ≠ .vectorScratch → (∀ i, p.target = .floatReg i → r ≠ reg i) → m'.v r = m.v r
  stored : stored touched = slot (m.x .sp) p.target
  loaded : ∀ b ∈ loaded touched, b ∈ slot (m.x .sp + BitVec.ofNat 64 size) p.source

theorem incoming (a : Address) (size offset : Nat) :
    a + BitVec.ofNat 64 (size + offset) = a + BitVec.ofNat 64 size + BitVec.ofNat 64 offset := by
  rw [BitVec.ofNat_add, BitVec.add_assoc]

theorem span_four_subset (a : Address) : ∀ b ∈ span a 4, b ∈ span a 8 := by
  intro b hb
  rw [span_add a 4 4]
  exact List.mem_append_left _ hb

theorem setWidth_low (value : BitVec 64) :
    ((value.setWidth 32).setWidth 64).setWidth 32 = value.setWidth 32 := by
  ext k hk
  simp

theorem double_putVector (m : Machine) (r : Reg) (value : BitVec 64) :
    (m.putVector r value).double r = value := by
  simp [Machine.double, BitVec.setWidth_setWidth_of_le]

theorem low_putVector (m : Machine) (r : Reg) (value : BitVec 64) :
    ((m.putVector r value).v r).setWidth 32 = value.setWidth 32 := by
  simp [BitVec.setWidth_setWidth_of_le]

theorem putVector_putVector (m : Machine) (r : Reg) (first second : BitVec 64) :
    (m.putVector r first).putVector r second = m.putVector r second := by
  simp [Machine.putVector]

def Scratched (m n : Machine) : Prop :=
  (∀ r, r ≠ .ip1 → n.x r = m.x r) ∧ ∀ r, r ≠ .vectorScratch → n.v r = m.v r

theorem scratched_refl (m : Machine) : Scratched m m :=
  ⟨fun _ _ => rfl, fun _ _ => rfl⟩

theorem scratched_set (m : Machine) (value : BitVec 64) : Scratched m (m.set .ip1 value) :=
  ⟨fun _ hr => Function.update_of_ne hr .., fun _ _ => rfl⟩

theorem scratched_putVector (m : Machine) (value : BitVec 64) :
    Scratched m (m.putVector .vectorScratch value) :=
  ⟨fun _ _ => rfl, fun _ hr => Function.update_of_ne hr ..⟩

section

variable {m n : Machine} {i : Instr} {size offset : Nat} {tag : Tag} {source : Location}
  {value : BitVec 64} {touched : List Touch}

theorem moved_to_intReg {r : Fin 8}
    (hd : Delivers widen tag (contents m (m.x .sp + BitVec.ofNat 64 size) source) value)
    (hs : stored touched = [])
    (hl : ∀ b ∈ loaded touched, b ∈ slot (m.x .sp + BitVec.ofNat 64 size) source) :
    Moved widen size ⟨tag, source, .intReg r⟩ m (m.set (reg r) value) touched where
  delivers := by simpa [contents] using hd
  x := fun r' _ hr' => Function.update_of_ne (hr' r rfl) ..
  v := fun _ _ _ => rfl
  stored := hs
  loaded := hl

theorem moved_to_floatReg {r : Fin 8} (hn : Scratched m n) (hx : n.x = m.x)
    (hd : Delivers widen tag (contents m (m.x .sp + BitVec.ofNat 64 size) source) value)
    (hs : stored touched = [])
    (hl : ∀ b ∈ loaded touched, b ∈ slot (m.x .sp + BitVec.ofNat 64 size) source) :
    Moved widen size ⟨tag, source, .floatReg r⟩ m (n.putVector (reg r) value) touched where
  delivers := by simpa [contents, double_putVector] using hd
  x := fun r' _ _ => by rw [Machine.putVector_x, hx]
  v := fun r' hr hr' => (Function.update_of_ne (hr' r rfl) ..).trans (hn.2 r' hr)
  stored := hs
  loaded := hl

theorem moved_to_stack (hn : Scratched m n)
    (hd : Delivers widen tag (contents m (m.x .sp + BitVec.ofNat 64 size) source) value)
    (hs : stored touched = slot (m.x .sp) (.stack offset))
    (hl : ∀ b ∈ loaded touched, b ∈ slot (m.x .sp + BitVec.ofNat 64 size) source) :
    Moved widen size ⟨tag, source, .stack offset⟩ m
      (n.storing (m.x .sp + BitVec.ofNat 64 offset) 8 value) touched where
  delivers := by simpa [contents, Memory.load_store_self] using hd
  x := fun r hr _ => hn.1 r hr
  v := fun r hr _ => hn.2 r hr
  stored := hs
  loaded := hl

variable (widen)

/-- An integer is loaded with as many bits as its tag says. -/
theorem perform_loadInteger {r : Reg} (hf : tag ≠ .float) (hr : r ≠ .sp) (hsp : m.IsBase .sp)
    (h : access (if tag.isWide then .ldrX else .ldrW) r .sp (size + offset) = .ok i) :
    ∃ value touched, m.perform widen i = some (m.set r value, touched) ∧
      Delivers widen tag (contents m (m.x .sp + BitVec.ofNat 64 size) (.stack offset)) value ∧
      stored touched = [] ∧
      ∀ b ∈ loaded touched, b ∈ slot (m.x .sp + BitVec.ofNat 64 size) (.stack offset) := by
  have hp := Machine.perform_access widen h hsp
  rw [incoming] at hp
  cases hw : tag.isWide with
  | true =>
    simp only [hw, if_true, Access.perform, Machine.put_of_ne hr] at hp
    refine ⟨_, _, hp, delivers_of_eq hf rfl, stored_map_load _, ?_⟩
    intro b hb
    rwa [loaded_map_load] at hb
  | false =>
    simp only [hw, Bool.false_eq_true, if_false, Access.perform, Machine.put_of_ne hr] at hp
    refine ⟨_, _, hp, delivers_of_low_eq hf hw ?_, stored_map_load _, ?_⟩
    · rw [Access.width, Memory.load_four, setWidth_low]
      rfl
    · intro b hb
      rw [loaded_map_load] at hb
      exact span_four_subset _ b hb

/-- A move between registers hands on as many bits as the tag says. -/
theorem perform_moveInteger {s t : Fin 8} (hf : tag ≠ .float) :
    ∃ value, m.perform widen
        (if tag.isWide then .movX (reg t) (reg s) else .movW (reg t) (reg s)) =
          some (m.set (reg t) value, []) ∧
      Delivers widen tag (m.x (reg s)) value := by
  cases hw : tag.isWide with
  | true =>
    refine ⟨m.x (reg s), ?_, delivers_of_eq hf rfl⟩
    rw [if_pos rfl, Machine.perform, Machine.put_of_ne (reg_ne_sp t),
      Machine.get_of_ne (reg_ne_sp s)]
  | false =>
    refine ⟨((m.x (reg s)).setWidth 32).setWidth 64, ?_, delivers_of_low_eq hf hw (setWidth_low _)⟩
    rw [if_neg Bool.false_ne_true, Machine.perform, Machine.put_of_ne (reg_ne_sp t),
      Machine.get_of_ne (reg_ne_sp s)]

theorem perform_loadSingle {r : Reg} (hsp : m.IsBase .sp)
    (h : access .ldrS r .sp (size + offset) = .ok i) :
    ∃ value touched, m.perform widen i = some (m.putVector r value, touched) ∧
      value.setWidth 32 =
        (contents m (m.x .sp + BitVec.ofNat 64 size) (.stack offset)).setWidth 32 ∧
      stored touched = [] ∧
      ∀ b ∈ loaded touched, b ∈ slot (m.x .sp + BitVec.ofNat 64 size) (.stack offset) := by
  have hp := Machine.perform_access widen h hsp
  rw [incoming] at hp
  simp only [Access.perform] at hp
  refine ⟨_, _, hp, ?_, stored_map_load _, ?_⟩
  · rw [Access.width, Memory.load_four, setWidth_low]
    rfl
  · intro b hb
    rw [loaded_map_load] at hb
    exact span_four_subset _ b hb

theorem perform_loadDouble {r : Reg} (hsp : m.IsBase .sp)
    (h : access .ldrD r .sp (size + offset) = .ok i) :
    ∃ touched, m.perform widen i = some (m.putVector r
        (contents m (m.x .sp + BitVec.ofNat 64 size) (.stack offset)), touched) ∧
      stored touched = [] ∧
      ∀ b ∈ loaded touched, b ∈ slot (m.x .sp + BitVec.ofNat 64 size) (.stack offset) := by
  have hp := Machine.perform_access widen h hsp
  rw [incoming] at hp
  simp only [Access.perform] at hp
  refine ⟨_, hp, stored_map_load _, ?_⟩
  intro b hb
  rwa [loaded_map_load] at hb

theorem perform_storeInteger {r : Reg} (hr : r ≠ .sp) (hsp : m.IsBase .sp)
    (h : access .strX r .sp offset = .ok i) :
    m.perform widen i = some (m.storing (m.x .sp + BitVec.ofNat 64 offset) 8 (m.x r),
      (slot (m.x .sp) (.stack offset)).map .store) := by
  rw [Machine.perform_access widen h hsp, Access.perform, Machine.get_of_ne hr]
  rfl

theorem perform_storeDouble {r : Reg} (hsp : m.IsBase .sp)
    (h : access .strD r .sp offset = .ok i) :
    m.perform widen i = some (m.storing (m.x .sp + BitVec.ofNat 64 offset) 8 (m.double r),
      (slot (m.x .sp) (.stack offset)).map .store) := by
  rw [Machine.perform_access widen h hsp]
  rfl

/-- What the vector scratch register holds can be stored like any other value. -/
theorem perform_storeScratch (value : BitVec 64) (hsp : m.IsBase .sp)
    (h : access .strD .vectorScratch .sp offset = .ok i) :
    (m.putVector .vectorScratch value).perform widen i =
      some ((m.putVector .vectorScratch value).storing (m.x .sp + BitVec.ofNat 64 offset) 8 value,
        (slot (m.x .sp) (.stack offset)).map .store) := by
  have hstored := perform_storeDouble widen (m := m.putVector .vectorScratch value) hsp h
  rwa [double_putVector] at hstored

variable {widen} {is : List Instr}

theorem moveInteger_moved {target : Location} (hf : tag ≠ .float) (hsp : m.IsBase .sp)
    (h : moveInteger size ⟨tag, source, target⟩ = .ok is) :
    ∃ m' touched, m.performAll widen is = some (m', touched) ∧
      Moved widen size ⟨tag, source, target⟩ m m' touched := by
  cases source with
  | intReg s =>
    cases target with
    | intReg t =>
      obtain rfl := Except.ok.inj h
      rw [Machine.performAll_singleton]
      obtain ⟨value, hp, hd⟩ := perform_moveInteger widen (m := m) (s := s) (t := t) hf
      exact ⟨_, _, hp, moved_to_intReg hd rfl (by simp)⟩
    | floatReg t => cases h
    | stack offset =>
      obtain ⟨store, hstore, his⟩ := Checked.bind_eq_ok_iff.mp h
      obtain rfl := Checked.pure_eq_ok_iff.mp his
      rw [Machine.performAll_singleton]
      refine ⟨_, _, perform_storeInteger widen (reg_ne_sp s) hsp hstore, ?_⟩
      exact moved_to_stack (scratched_refl m) (delivers_of_eq hf rfl) (stored_map_store _) (by simp)
  | floatReg s => cases target <;> cases h
  | stack s =>
    cases target with
    | intReg t =>
      obtain ⟨fetch, hfetch, his⟩ := Checked.bind_eq_ok_iff.mp h
      obtain rfl := Checked.pure_eq_ok_iff.mp his
      rw [Machine.performAll_singleton]
      obtain ⟨value, touched, hp, hd, hs, hl⟩ :=
        perform_loadInteger widen hf (reg_ne_sp t) hsp hfetch
      exact ⟨_, _, hp, moved_to_intReg hd hs hl⟩
    | floatReg t => cases h
    | stack t =>
      obtain ⟨fetch, hfetch, h⟩ := Checked.bind_eq_ok_iff.mp h
      obtain ⟨store, hstore, his⟩ := Checked.bind_eq_ok_iff.mp h
      obtain rfl := Checked.pure_eq_ok_iff.mp his
      obtain ⟨value, touched, hp, hd, hs, hl⟩ := perform_loadInteger widen hf (by decide) hsp hfetch
      have hstored := perform_storeInteger widen (m := m.set .ip1 value) (by decide)
        hsp hstore
      refine ⟨_, _, Machine.performAll_pair hp hstored, ?_⟩
      rw [Machine.set_x, Function.update_self]
      refine moved_to_stack (scratched_set m value) hd ?_ ?_
      · rw [stored_append, hs, stored_map_store]
        rfl
      · rw [loaded_append, loaded_map_store, List.append_nil]
        exact hl

theorem moveFloat_moved {target : Location} (hsp : m.IsBase .sp)
    (h : moveFloat size ⟨.float, source, target⟩ = .ok is) :
    ∃ m' touched, m.performAll widen is = some (m', touched) ∧
      Moved widen size ⟨.float, source, target⟩ m m' touched := by
  cases source with
  | intReg s => cases target <;> cases h
  | floatReg s =>
    have hlow : (m.v (reg s)).setWidth 32 = (m.double (reg s)).setWidth 32 := by
      simp [Machine.double, BitVec.setWidth_setWidth_of_le]
    cases target with
    | intReg t => cases h
    | floatReg t =>
      obtain rfl := Except.ok.inj h
      rw [Machine.performAll_singleton]
      refine ⟨_, _, rfl, moved_to_floatReg (scratched_refl m) rfl ?_ rfl (by simp)⟩
      exact congrArg widen hlow
    | stack offset =>
      obtain ⟨store, hstore, his⟩ := Checked.bind_eq_ok_iff.mp h
      obtain rfl := Checked.pure_eq_ok_iff.mp his
      refine ⟨_, _, Machine.performAll_pair rfl (perform_storeScratch widen _ hsp hstore), ?_⟩
      rw [hlow]
      exact moved_to_stack (scratched_putVector m _) rfl (stored_map_store _) (by simp)
  | stack s =>
    cases target with
    | intReg t => cases h
    | floatReg t =>
      obtain ⟨fetch, hfetch, his⟩ := Checked.bind_eq_ok_iff.mp h
      obtain rfl := Checked.pure_eq_ok_iff.mp his
      obtain ⟨value, touched, hp, hv, hs, hl⟩ := perform_loadSingle widen hsp hfetch
      have hwiden : (m.putVector .vectorScratch value).perform widen
          (.fcvtDS (reg t) .vectorScratch) = some _ := rfl
      refine ⟨_, _, Machine.performAll_pair hp hwiden, ?_⟩
      rw [List.append_nil, low_putVector, hv]
      exact moved_to_floatReg (scratched_putVector m value) rfl rfl hs hl
    | stack t =>
      obtain ⟨fetch, hfetch, h⟩ := Checked.bind_eq_ok_iff.mp h
      obtain ⟨store, hstore, his⟩ := Checked.bind_eq_ok_iff.mp h
      obtain rfl := Checked.pure_eq_ok_iff.mp his
      obtain ⟨value, touched, hp, hv, hs, hl⟩ := perform_loadSingle widen hsp hfetch
      have hwiden : (m.putVector .vectorScratch value).perform widen
          (.fcvtDS .vectorScratch .vectorScratch) = some _ := rfl
      rw [low_putVector, hv, putVector_putVector] at hwiden
      refine ⟨_, _, Machine.performAll_cons hp (Machine.performAll_pair hwiden
        (perform_storeScratch widen _ hsp hstore)), ?_⟩
      refine moved_to_stack (scratched_putVector m _) rfl ?_ ?_
      · simp [hs]
      · simpa using hl

theorem moveDouble_moved {target : Location} (hsp : m.IsBase .sp)
    (h : moveDouble size ⟨.double, source, target⟩ = .ok is) :
    ∃ m' touched, m.performAll widen is = some (m', touched) ∧
      Moved widen size ⟨.double, source, target⟩ m m' touched := by
  cases source with
  | intReg s => cases target <;> exact moveInteger_moved (by decide) hsp h
  | floatReg s =>
    cases target with
    | intReg t => cases h
    | floatReg t =>
      obtain rfl := Except.ok.inj h
      by_cases hst : s = t
      · subst hst
        rw [if_pos rfl]
        exact ⟨_, _, rfl, rfl, fun _ _ _ => rfl, fun _ _ _ => rfl, rfl, by simp⟩
      · rw [if_neg hst, Machine.performAll_singleton]
        exact ⟨_, _, rfl, moved_to_floatReg (scratched_refl m) rfl rfl rfl (by simp)⟩
    | stack offset =>
      obtain ⟨store, hstore, his⟩ := Checked.bind_eq_ok_iff.mp h
      obtain rfl := Checked.pure_eq_ok_iff.mp his
      rw [Machine.performAll_singleton]
      refine ⟨_, _, perform_storeDouble widen hsp hstore, ?_⟩
      exact moved_to_stack (scratched_refl m) rfl (stored_map_store _) (by simp)
  | stack s =>
    cases target with
    | intReg t => exact moveInteger_moved (by decide) hsp h
    | floatReg t =>
      obtain ⟨fetch, hfetch, his⟩ := Checked.bind_eq_ok_iff.mp h
      obtain rfl := Checked.pure_eq_ok_iff.mp his
      rw [Machine.performAll_singleton]
      obtain ⟨touched, hp, hs, hl⟩ := perform_loadDouble widen hsp hfetch
      exact ⟨_, _, hp, moved_to_floatReg (scratched_refl m) rfl rfl hs hl⟩
    | stack t =>
      obtain ⟨fetch, hfetch, h⟩ := Checked.bind_eq_ok_iff.mp h
      obtain ⟨store, hstore, his⟩ := Checked.bind_eq_ok_iff.mp h
      obtain rfl := Checked.pure_eq_ok_iff.mp his
      obtain ⟨touched, hp, hs, hl⟩ := perform_loadDouble widen hsp hfetch
      refine ⟨_, _, Machine.performAll_pair hp (perform_storeScratch widen _ hsp hstore), ?_⟩
      refine moved_to_stack (scratched_putVector m _) rfl ?_ ?_
      · simp [hs]
      · simpa using hl

variable (widen) in
theorem move_moved {p : Placement} (hsp : m.IsBase .sp) (h : move size p = .ok is) :
    ∃ m' touched, m.performAll widen is = some (m', touched) ∧
      Moved widen size p m m' touched := by
  obtain ⟨tag, source, target⟩ := p
  unfold move at h
  split at h
  · next htag =>
    obtain rfl : tag = .float := htag
    exact moveFloat_moved hsp h
  · next htag =>
    obtain rfl : tag = .double := htag
    exact moveDouble_moved hsp h
  · next hf _ => exact moveInteger_moved hf hsp h

end

end NativeBridge.Stub
