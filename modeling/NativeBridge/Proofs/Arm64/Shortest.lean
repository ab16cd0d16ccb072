import NativeBridge.Proofs.Arm64.Constants

/-! # Shortest loads

A constant is loaded with one instruction for each of its parts that is not zero, or with a single
one. No run of such instructions that leaves the constant whatever the register held has fewer: in
a register that held zero, every part that no instruction sets is zero still.
-/

namespace NativeBridge.Arm64

def nonzeroParts (value : BitVec 64) : Finset (Fin 4) :=
  Finset.univ.filter fun part => partOf value part ≠ 0

@[simp] theorem mem_nonzeroParts {value : BitVec 64} {part : Fin 4} :
    part ∈ nonzeroParts value ↔ partOf value part ≠ 0 := by
  simp [nonzeroParts]

theorem length_filter_parts (value : UInt64) :
    ((parts value).filter (·.2 != 0)).length = (nonzeroParts value.toBitVec).card := by
  rw [parts_eq, List.filter_map, List.length_map,
    ← List.toFinset_card_of_nodup ((List.nodup_finRange 4).filter _), List.toFinset_filter,
    List.toFinset_finRange]
  simp [nonzeroParts]

theorem length_load (dst : Reg) (value : UInt64) :
    (load dst value).length = max 1 (nonzeroParts value.toBitVec).card := by
  rw [← length_filter_parts]
  unfold load
  split
  · next hnil => simp [hnil]
  · next hcons => simp [hcons]

/-- The part of its register that a load of one part sets. Other instructions are no such load. -/
def Instr.part? : Instr → Option (Fin 4)
  | .movz _ part _ | .movk _ part _ => some part
  | _ => none

def LoadsPart (word : UInt32) : Prop :=
  ∃ i part, Instr.decode? word = some i ∧ i.part? = some part

theorem loads_of_decode {words : List UInt32} {is : List Instr} (h : ∀ w ∈ words, LoadsPart w)
    (hpairs : List.Forall₂ (fun w i => Instr.decode? w = some i) words is) :
    ∀ i ∈ is, ∃ part, i.part? = some part := by
  induction hpairs with
  | nil => simp
  | cons hi _ ih =>
    obtain ⟨⟨j, part, hj, hpart⟩, hothers⟩ := List.forall_mem_cons.mp h
    obtain rfl := Option.some.inj (hi.symm.trans hj)
    exact List.forall_mem_cons.mpr ⟨⟨part, hpart⟩, ih hothers⟩

theorem loadsPart_of_mem_load {dst : Reg} {value : UInt64} :
    ∀ w ∈ (load dst value).map Instr.word, LoadsPart w := by
  rintro _ hw
  obtain ⟨i, hi, rfl⟩ := List.mem_map.mp hw
  refine ⟨i, ?_⟩
  unfold load at hi
  split at hi
  · obtain rfl := List.mem_singleton.mp hi
    exact ⟨0, Instr.decode?_word _, rfl⟩
  · rcases List.mem_cons.mp hi with rfl | hi
    · exact ⟨_, Instr.decode?_word _, rfl⟩
    · obtain ⟨step, -, rfl⟩ := List.mem_map.mp hi
      exact ⟨step.1, Instr.decode?_word _, rfl⟩

namespace Machine

variable {widen : BitVec 32 → BitVec 64} {m m' : Machine} {touched : List Touch} {dst : Reg}
  {part : Fin 4}

theorem partOf_put {r : Reg} {value : BitVec 64} (h : partOf (m.x dst) part = 0)
    (hvalue : r = dst → partOf value part = 0) : partOf ((m.put r value).x dst) part = 0 := by
  rw [put]
  split
  · exact h
  · by_cases hr : dst = r
    · subst hr
      simpa using hvalue rfl
    · simpa [Function.update_of_ne hr] using h

/-- A load of another part keeps a part zero, whether it clears the register or not. -/
theorem partOf_of_perform {i : Instr} {other : Fin 4} (hi : i.part? = some other)
    (hne : part ≠ other) (h : m.perform widen i = some (m', touched))
    (hzero : partOf (m.x dst) part = 0) : partOf (m'.x dst) part = 0 := by
  cases i with
  | movz r set bits =>
    obtain rfl := Option.some.inj hi
    obtain ⟨rfl, -⟩ := Prod.mk.inj (Option.some.inj h)
    apply partOf_put hzero
    intro _
    rw [partOf_withPart, if_neg hne]
    exact partOf_zero part
  | movk r set bits =>
    obtain rfl := Option.some.inj hi
    obtain ⟨rfl, -⟩ := Prod.mk.inj (Option.some.inj h)
    apply partOf_put hzero
    rintro rfl
    rw [partOf_withPart, if_neg hne, get]
    split
    · exact partOf_zero part
    · exact hzero
  | _ => cases hi

theorem partOf_of_performAll {is : List Instr} (hloads : ∀ i ∈ is, ∃ other, i.part? = some other)
    (hnot : part ∉ is.filterMap Instr.part?) (h : m.performAll widen is = some (m', touched))
    (hzero : partOf (m.x dst) part = 0) : partOf (m'.x dst) part = 0 := by
  induction is generalizing m touched with
  | nil =>
    obtain ⟨rfl, -⟩ := (performAll_nil_iff widen).mp h
    exact hzero
  | cons i others ih =>
    obtain ⟨n, first, rest, hi, hothers, rfl⟩ := (performAll_cons_iff widen).mp h
    obtain ⟨other, hother⟩ := hloads i List.mem_cons_self
    rw [List.filterMap_cons_some hother, List.mem_cons, not_or] at hnot
    apply ih (fun j hj => hloads j (List.mem_cons_of_mem _ hj)) hnot.2 hothers
    exact partOf_of_perform hother hnot.1 hi hzero

variable (widen) (m dst)

/-- Whether words leave a value in a register of the machine, whatever the register held. -/
def Leaves (words : List UInt32) (value : BitVec 64) : Prop :=
  ∀ held, ∃ m' touched,
    (m.set dst held).performWords widen words = some (m', touched) ∧ m'.x dst = value

def loadLengths (value : BitVec 64) : Set Nat :=
  {n | ∃ words : List UInt32, words.length = n ∧ (∀ w ∈ words, LoadsPart w) ∧
    m.Leaves widen dst words value}

variable {widen m dst} {value : BitVec 64}

theorem leaves_of_performWords {words : List UInt32}
    (h : ∀ held, (m.set dst held).performWords widen words = some (m.set dst value, [])) :
    m.Leaves widen dst words value := by
  intro held
  refine ⟨_, _, h held, ?_⟩
  simp

theorem not_leaves_nil : ¬m.Leaves widen dst [] value := by
  intro h
  obtain ⟨m', touched, hrun, hvalue⟩ := h (value + 1)
  obtain ⟨rfl, -⟩ := (performAll_nil_iff widen).mp hrun
  simp at hvalue

/-- Each part that is not zero is set by one of the words, and no word sets two. -/
theorem card_nonzeroParts_le {words : List UInt32} (hwords : ∀ w ∈ words, LoadsPart w)
    (h : m.Leaves widen dst words value) : (nonzeroParts value).card ≤ words.length := by
  -- a register that held zero has no part of the value that could simply stay
  obtain ⟨m', touched, hrun, rfl⟩ := h 0
  obtain ⟨is, hdecode, hperform⟩ := Option.bind_eq_some_iff.mp hrun
  have hpairs := Instr.mapM_decode?_eq_some_iff.mp hdecode
  have hset : nonzeroParts (m'.x dst) ⊆ (is.filterMap Instr.part?).toFinset := by
    intro part hpart
    rw [mem_nonzeroParts] at hpart
    rw [List.mem_toFinset]
    by_contra hnot
    exact hpart (partOf_of_performAll (loads_of_decode hwords hpairs) hnot hperform (by simp))
  calc (nonzeroParts (m'.x dst)).card
      ≤ (is.filterMap Instr.part?).toFinset.card := Finset.card_le_card hset
    _ ≤ (is.filterMap Instr.part?).length := List.toFinset_card_le _
    _ ≤ is.length := List.length_filterMap_le _ _
    _ = words.length := hpairs.length_eq.symm

theorem one_le_length_of_leaves {words : List UInt32} (h : m.Leaves widen dst words value) :
    1 ≤ words.length := by
  rw [Nat.one_le_iff_ne_zero, Ne, List.length_eq_zero_iff]
  rintro rfl
  exact not_leaves_nil h

end Machine

open Machine

/-- Both loads leave precisely their value and touch nothing else. The one has four instructions,
the other as few as a run of loads of parts can have. -/
theorem load_shortest (widen : BitVec 32 → BitVec 64) (m : Machine) {dst : Reg}
    (hdst : dst.val < 31) (value : UInt64) :
    m.performWords widen ((load dst value).map Instr.word) =
        some (m.set dst value.toBitVec, []) ∧
      m.performWords widen ((loadFixed dst value).map Instr.word) =
        some (m.set dst value.toBitVec, []) ∧
      (loadFixed dst value).length = 4 ∧
      (load dst value).length = max 1 (nonzeroParts value.toBitVec).card ∧
      IsLeast (m.loadLengths widen dst value.toBitVec) (load dst value).length := by
  have hsp : dst ≠ .sp := by
    rintro rfl
    exact absurd hdst (by decide)
  have hload (held : BitVec 64) : (m.set dst held).performWords widen
      ((load dst value).map Instr.word) = some (m.set dst value.toBitVec, []) := by
    rw [performWords_word, performAll_load widen _ hsp, set_set]
  refine ⟨?_, ?_, length_loadFixed dst value, length_load dst value, ?_, ?_⟩
  · rw [performWords_word, performAll_load widen m hsp]
  · rw [performWords_word, performAll_loadFixed widen m hsp]
  · exact ⟨_, List.length_map _, loadsPart_of_mem_load, leaves_of_performWords hload⟩
  · rintro _ ⟨words, rfl, hwords, hleaves⟩
    rw [length_load]
    exact max_le (one_le_length_of_leaves hleaves) (card_nonzeroParts_le hwords hleaves)

/-- Two parts of four are zero, and both ends of the value are kept. -/
theorem load_shortest_sparse : Reg.ip0.val < 31 ∧
    performWords (fun _ => 0) ⟨fun _ => 7, fun _ => 0, fun _ => 0⟩ [0xD2AAACD0, 0xF2E22450] =
      some (set ⟨fun _ => 7, fun _ => 0, fun _ => 0⟩ .ip0 0x1122000055660000, []) ∧
    IsLeast (loadLengths (fun _ => 0) ⟨fun _ => 7, fun _ => 0, fun _ => 0⟩ .ip0
      0x1122000055660000) 2 := by
  obtain ⟨hload, -, -, -, hleast⟩ := load_shortest (fun _ => 0)
    ⟨fun _ => 7, fun _ => 0, fun _ => 0⟩ (show Reg.ip0.val < 31 by decide) 0x1122000055660000
  exact ⟨by decide, hload, hleast⟩

end NativeBridge.Arm64
