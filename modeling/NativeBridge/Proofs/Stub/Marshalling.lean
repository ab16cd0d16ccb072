import NativeBridge.Proofs.Stub.Moves

/-! # Marshalling

The moves of all arguments, made from the last to the first. A move that is made later keeps what
the earlier ones have delivered, and finds what it reads as the caller left it.
-/

namespace NativeBridge.Stub

open Arm64 Call

variable {widen : BitVec 32 → BitVec 64} {size : Nat} {m n : Machine} {area : Address}
  {loc : Location}

theorem contents_congr (hx : ∀ i, loc = .intReg i → n.x (reg i) = m.x (reg i))
    (hv : ∀ i, loc = .floatReg i → n.v (reg i) = m.v (reg i))
    (hmem : ∀ b ∈ slot area loc, n.memory b = m.memory b) :
    contents n area loc = contents m area loc := by
  cases loc with
  | intReg r => exact hx r rfl
  | floatReg r => exact congrArg (BitVec.setWidth 64) (hv r rfl)
  | stack offset => exact Memory.load_congr hmem

theorem contents_set {r : Reg} {value : BitVec 64} (h : ∀ i, loc = .intReg i → reg i ≠ r) :
    contents (m.set r value) area loc = contents m area loc :=
  contents_congr (fun i hi => Function.update_of_ne (h i hi) ..) (fun _ _ => rfl) fun _ _ => rfl

/-- Whether the slots of a placement lie where they are looked for: what is passed on inside a
frame of `size` bytes, what arrives above it. -/
structure Fits (size : Nat) (p : Placement) : Prop where
  source : ∀ offset, p.source = .stack offset → size + offset + 8 ≤ 2 ^ 64
  target : ∀ offset, p.target = .stack offset → offset + 8 ≤ size
  size_le : size ≤ 2 ^ 64

theorem disjoint_source_target {p q : Placement} (hp : Fits size p) (hq : Fits size q) :
    (slot (area + BitVec.ofNat 64 size) p.source).Disjoint (slot area q.target) := by
  cases hs : p.source with
  | stack offset =>
    cases ht : q.target with
    | stack offset' =>
      have := hp.source offset hs
      have := hq.target offset' ht
      rw [slot, slot, ← incoming]
      exact disjoint_span area (.inr (by omega)) (by omega) (by omega)
    | _ => exact List.disjoint_nil_right _
  | _ => exact List.disjoint_nil_left _

theorem disjoint_targets {p q : Placement} (hp : Fits size p) (hq : Fits size q)
    (h : p.target.Apart q.target) : (slot area p.target).Disjoint (slot area q.target) := by
  cases ht : p.target with
  | stack offset =>
    cases ht' : q.target with
    | stack offset' =>
      have := hp.target offset ht
      have := hq.target offset' ht'
      have := hp.size_le
      rw [ht, ht'] at h
      exact disjoint_span area h (by omega) (by omega)
    | _ => exact List.disjoint_nil_right _
  | _ => exact List.disjoint_nil_left _

theorem ne_of_apart {a b : Location} (h : a.Apart b) (hs : a.isStack = false) : a ≠ b := by
  cases a with
  | stack => cases hs
  | _ => exact h

/-- What the moves of several placements do. -/
structure Marshalled (widen : BitVec 32 → BitVec 64) (size : Nat) (ps : List Placement)
    (m m' : Machine) (touched : List Touch) : Prop where
  delivers : ∀ p ∈ ps, Delivers widen p.tag (contents m (m.x .sp + BitVec.ofNat 64 size) p.source)
    (contents m' (m.x .sp) p.target)
  x : ∀ r, r ≠ .ip1 → (∀ p ∈ ps, ∀ i, p.target = .intReg i → r ≠ reg i) → m'.x r = m.x r
  v : ∀ r, r ≠ .vectorScratch → (∀ p ∈ ps, ∀ i, p.target = .floatReg i → r ≠ reg i) →
    m'.v r = m.v r
  stored : stored touched = ps.reverse.flatMap fun p => slot (m.x .sp) p.target
  loaded : ∀ b ∈ loaded touched, ∃ p ∈ ps, b ∈ slot (m.x .sp + BitVec.ofNat 64 size) p.source

theorem Marshalled.sp_eq {ps : List Placement} {m' : Machine} {touched : List Touch}
    (h : Marshalled widen size ps m m' touched) : m'.x .sp = m.x .sp :=
  h.x .sp (by decide) fun _ _ i _ => (reg_ne_sp i).symm

section

variable {p : Placement} {ps : List Placement} {m' : Machine} {touched touched' : List Touch}

/-- An argument is still where it arrives when the later ones have moved. -/
theorem Marshalled.source_eq (h : Marshalled widen size ps m n touched)
    (hmem : ∀ b, b ∉ Arm64.stored touched → n.memory b = m.memory b)
    (hclear : ∀ q ∈ ps, Clear p q) (hp : Fits size p) (hfits : ∀ q ∈ ps, Fits size q) :
    contents n (m.x .sp + BitVec.ofNat 64 size) p.source =
      contents m (m.x .sp + BitVec.ofNat 64 size) p.source := by
  refine contents_congr ?_ ?_ ?_
  · intro i hi
    refine h.x _ (reg_ne_ip1 i) fun q hq j hj hij => ?_
    obtain rfl := reg_inj.mp hij
    exact (hclear q hq).1 (by rw [hi]; rfl) (hi.trans hj.symm)
  · intro i hi
    refine h.v _ (reg_ne_vectorScratch i) fun q hq j hj hij => ?_
    obtain rfl := reg_inj.mp hij
    exact (hclear q hq).1 (by rw [hi]; rfl) (hi.trans hj.symm)
  · intro b hb
    refine hmem b fun hstored => ?_
    rw [h.stored, List.mem_flatMap] at hstored
    obtain ⟨q, hq, hbq⟩ := hstored
    exact disjoint_source_target hp (hfits q (List.mem_reverse.mp hq)) hb hbq

/-- What has been delivered stays when one more argument moves. -/
theorem Moved.target_eq {q : Placement} (h : Moved widen size p n m' touched)
    (hmem : ∀ b, b ∉ Arm64.stored touched → m'.memory b = n.memory b)
    (hapart : p.target.Apart q.target) (hp : Fits size p) (hq : Fits size q) :
    contents m' (n.x .sp) q.target = contents n (n.x .sp) q.target := by
  refine contents_congr ?_ ?_ ?_
  · intro i hi
    refine h.x _ (reg_ne_ip1 i) fun j hj hij => ?_
    obtain rfl := reg_inj.mp hij
    exact ne_of_apart hapart (by rw [hj]; rfl) (hj.trans hi.symm)
  · intro i hi
    refine h.v _ (reg_ne_vectorScratch i) fun j hj hij => ?_
    obtain rfl := reg_inj.mp hij
    exact ne_of_apart hapart (by rw [hj]; rfl) (hj.trans hi.symm)
  · intro b hb
    refine hmem b fun hstored => ?_
    rw [h.stored] at hstored
    exact disjoint_targets hp hq hapart hstored hb

theorem Marshalled.cons (h : Marshalled widen size ps m n touched)
    (hn : ∀ b, b ∉ Arm64.stored touched → n.memory b = m.memory b)
    (h' : Moved widen size p n m' touched')
    (hm' : ∀ b, b ∉ Arm64.stored touched' → m'.memory b = n.memory b)
    (hclear : ∀ q ∈ ps, Clear p q) (hp : Fits size p) (hfits : ∀ q ∈ ps, Fits size q) :
    Marshalled widen size (p :: ps) m m' (touched ++ touched') where
  delivers := by
    intro q hq
    rcases List.mem_cons.mp hq with rfl | hq
    · have hd := h'.delivers
      rwa [h.sp_eq, h.source_eq hn hclear hp hfits] at hd
    · have hkept := h'.target_eq hm' (hclear q hq).2 hp (hfits q hq)
      rw [h.sp_eq] at hkept
      rw [hkept]
      exact h.delivers q hq
  x := by
    intro r hr htargets
    rw [h'.x r hr (htargets p List.mem_cons_self),
      h.x r hr fun q hq => htargets q (List.mem_cons_of_mem _ hq)]
  v := by
    intro r hr htargets
    rw [h'.v r hr (htargets p List.mem_cons_self),
      h.v r hr fun q hq => htargets q (List.mem_cons_of_mem _ hq)]
  stored := by
    rw [stored_append, h.stored, h'.stored, h.sp_eq, List.reverse_cons, List.flatMap_append,
      List.flatMap_singleton]
  loaded := by
    intro b hb
    rw [loaded_append, List.mem_append] at hb
    rcases hb with hb | hb
    · obtain ⟨q, hq, hbq⟩ := h.loaded b hb
      exact ⟨q, List.mem_cons_of_mem _ hq, hbq⟩
    · have hbp := h'.loaded b hb
      rw [h.sp_eq] at hbp
      exact ⟨p, List.mem_cons_self, hbp⟩

end

variable (widen) in
/-- The induction is on the placements in order, so its step makes the last move of the run. -/
theorem moves_marshalled {ps : List Placement} {iss : List (List Instr)}
    (h : List.Forall₂ (fun p is => move size p = .ok is) ps iss) (hsp : m.IsBase .sp)
    (hclear : ps.Pairwise Clear) (hfits : ∀ p ∈ ps, Fits size p) :
    ∃ m' touched, m.performAll widen iss.reverse.flatten = some (m', touched) ∧
      Marshalled widen size ps m m' touched := by
  induction h with
  | nil =>
    refine ⟨m, [], rfl, by simp, fun _ _ _ => rfl, fun _ _ _ => rfl, rfl, by simp⟩
  | @cons p is ps iss hmove _ ih =>
    obtain ⟨hp, hps⟩ := List.pairwise_cons.mp hclear
    obtain ⟨n, touched, hn, hmarshalled⟩ := ih hps fun q hq => hfits q (List.mem_cons_of_mem _ hq)
    have hspn : n.IsBase .sp := fun _ => by rw [hmarshalled.sp_eq]; exact hsp rfl
    obtain ⟨m', touched', hm', hmoved⟩ := move_moved widen hspn hmove
    refine ⟨m', touched ++ touched', ?_, ?_⟩
    · rw [List.reverse_cons, List.flatten_append, List.flatten_singleton]
      exact Machine.performAll_append widen hn hm'
    · exact hmarshalled.cons (fun b => Machine.memory_of_performAll hn) hmoved
        (fun b => Machine.memory_of_performAll hm') hp (hfits p List.mem_cons_self)
        fun q hq => hfits q (List.mem_cons_of_mem _ hq)

end NativeBridge.Stub
