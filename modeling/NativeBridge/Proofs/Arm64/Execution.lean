import NativeBridge.Proofs.Arm64.Machine

/-! # Running code

A code is a run of words at consecutive addresses. A step decodes the word at the program counter
and performs it. Instructions whose words stand in a code are performed one after the other.
-/

namespace NativeBridge.Arm64

/-- Words at consecutive addresses. -/
structure Code where
  base : Address
  words : List UInt32

/-- A machine that is about to perform the instruction at an address. -/
structure Running where
  pc : Address
  machine : Machine

namespace Code

def instr? (c : Code) (a : Address) : Option Instr :=
  let distance := (a - c.base).toNat
  if distance % 4 = 0 then c.words[distance / 4]?.bind Instr.decode? else none

variable (widen : BitVec 32 → BitVec 64)

/-- One step, and the bytes touched. A call leaves the address after it in the link register. -/
def step (c : Code) (s : Running) : Option (Running × List Touch) := do
  match ← c.instr? s.pc with
  | .blr target => return (⟨s.machine.get target, s.machine.put .lr (s.pc + 4)⟩, [])
  | .ret => return (⟨s.machine.get .lr, s.machine⟩, [])
  | i =>
    let (m, touched) ← s.machine.perform widen i
    return (⟨s.pc + 4, m⟩, touched)

/-- Steps in sequence, and all the bytes touched. -/
inductive Runs (c : Code) : Running → List Touch → Running → Prop
  | refl (s : Running) : Runs c s [] s
  | step {s s' s'' : Running} {first rest : List Touch} (h : c.step widen s = some (s', first))
      (others : Runs c s' rest s'') : Runs c s (first ++ rest) s''

variable {widen} {c : Code}

def place (c : Code) (index : Nat) : Address :=
  c.base + BitVec.ofNat 64 (4 * index)

theorem place_succ (c : Code) (index : Nat) : c.place index + 4 = c.place (index + 1) := by
  simp only [place]
  bv_omega

theorem instr?_place {before : List Instr} {i : Instr} (after : List Instr)
    (hc : c.words = (before ++ i :: after).map Instr.word) (hlen : 4 * c.words.length < 2 ^ 64) :
    c.instr? (c.place before.length) = some i := by
  have hlt : before.length < c.words.length := by simp [hc]
  rw [instr?, place, add_ofNat_sub c.base (by omega), if_pos (by omega),
    Nat.mul_div_cancel_left _ (by decide), hc, List.map_append, List.map_cons,
    List.getElem?_append_right (by simp)]
  simp

theorem step_of_perform {a : Address} {m m' : Machine} {i : Instr} {touched : List Touch}
    (hi : c.instr? a = some i) (h : m.perform widen i = some (m', touched)) :
    c.step widen ⟨a, m⟩ = some (⟨a + 4, m'⟩, touched) := by
  cases i with
  | blr | ret => simp [Machine.perform] at h
  | _ => simp [step, hi, h]

/-- Instructions that stand in a code are performed one after the other. -/
theorem runs_of_performAll (before is after : List Instr) {m m' : Machine} {touched : List Touch}
    (hc : c.words = (before ++ is ++ after).map Instr.word) (hlen : 4 * c.words.length < 2 ^ 64)
    (h : m.performAll widen is = some (m', touched)) :
    c.Runs widen ⟨c.place before.length, m⟩ touched ⟨c.place (before ++ is).length, m'⟩ := by
  induction is generalizing before m touched with
  | nil =>
    obtain ⟨rfl, rfl⟩ := (Machine.performAll_nil_iff widen).mp h
    rw [List.append_nil]
    exact .refl _
  | cons i others ih =>
    obtain ⟨n, first, rest, hi, hothers, rfl⟩ := (Machine.performAll_cons_iff widen).mp h
    have hat : c.instr? (c.place before.length) = some i :=
      instr?_place (others ++ after) (by simpa using hc) hlen
    have hrest := ih (before ++ [i]) (by simpa using hc) hothers
    rw [List.append_assoc, List.singleton_append, List.length_append, List.length_singleton,
      ← place_succ] at hrest
    exact .step (step_of_perform hat hi) hrest

theorem runs_from_base {is : List Instr} (after : List Instr) {m m' : Machine}
    {touched : List Touch} (hc : c.words = (is ++ after).map Instr.word)
    (hlen : 4 * c.words.length < 2 ^ 64) (h : m.performAll widen is = some (m', touched)) :
    c.Runs widen ⟨c.base, m⟩ touched ⟨c.place is.length, m'⟩ := by
  have hruns := runs_of_performAll [] is after hc hlen h
  rwa [List.length_nil, place, Nat.mul_zero, BitVec.add_zero] at hruns

end Code

end NativeBridge.Arm64
