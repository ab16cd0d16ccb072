import NativeBridge.Proofs.Arm64.Execution
import NativeBridge.Proofs.Stub.Called

/-! # Delivery

A stub that runs reaches its call, the only one, with the dispatcher, the function, the tag string
and the environment in their registers, and every other argument where the convention puts it
behind them.
-/

namespace NativeBridge.Stub

open Arm64 Call

theorem location_ne_first {earlier later : List Tag} {tag : Tag} {args : List Tag}
    (hargs : args = earlier ++ tag :: later) (henv : args.head? = some .pointer)
    (hne : earlier ≠ []) : location 0 earlier tag ≠ .intReg 0 := by
  intro h
  obtain ⟨-, hr⟩ := location_eq_intReg_iff.mp h
  cases earlier with
  | nil => exact hne rfl
  | cons first earlier =>
    rw [hargs, List.cons_append, List.head?_cons, Option.some.injEq] at henv
    rw [henv, integers_cons, Fin.val_zero] at hr
    simp [Tag.registerClass] at hr
    omega

theorem decode?_ne_blr {is : List Instr} (h : ∀ i ∈ is, ∀ r, i ≠ .blr r) :
    ∀ word ∈ is.map Instr.word, ∀ r, Instr.decode? word ≠ some (.blr r) := by
  rintro word hword r hr
  obtain ⟨i, hi, rfl⟩ := List.mem_map.mp hword
  rw [Instr.decode?_word] at hr
  exact h i hi r (Option.some.inj hr)

theorem passResult_ne_blr (tag : Tag) : ∀ i ∈ passResult tag, ∀ r, i ≠ .blr r := by
  intro i hi r
  rintro rfl
  cases tag <;> simp [passResult] at hi

variable {sig : Signature} {target : Target} {words : List UInt32}

theorem runs_to_call (h : assemble sig target = .ok words) (widen : BitVec 32 → BitVec 64)
    (base : Address) {e : Machine} (hsp : (e.x .sp).toNat % 16 = 0) :
    ∃ before call after m touched, words = before ++ call :: after ∧
      Instr.decode? call = some (.blr .ip0) ∧
      (∀ word ∈ before ++ after, ∀ r, Instr.decode? word ≠ some (.blr r)) ∧
      Code.Runs widen ⟨base, words⟩ ⟨base, e⟩ touched
        ⟨base + BitVec.ofNat 64 (4 * before.length), m⟩ ∧
      m.x .ip0 = target.dispatcher.toBitVec ∧ m.x .r0 = target.function.toBitVec ∧
      m.memory.read (m.x .r1) (sig.args.length + 1) =
        sig.args.map (·.letter.toUInt8) ++ [0] ∧
      (m.x .sp).toNat % 16 = 0 ∧ m.x (reg 2) = target.env.toBitVec ∧
      ∀ earlier tag later, sig.args = earlier ++ tag :: later → earlier ≠ [] →
        Delivers widen tag (contents e (e.x .sp) (location 0 earlier tag))
          (contents m (m.x .sp) (location 2 earlier tag)) := by
  have hentry : e.IsBase .sp := fun _ => hsp
  obtain ⟨p, before, closing, m, touched, -, hp, hleave, hwords, hlength, hrun, hcalled⟩ :=
    called_of_assemble h widen hentry
  have haligned : m.IsBase .sp := isBase_sub hentry hp.frame.aligned hcalled.sp
  obtain ⟨m', touched', hclosing, -⟩ := leave_left widen hp.frame haligned hleave
  refine ⟨_, _, _, m, touched, by rw [hwords, List.map_append, List.map_cons],
    Instr.decode?_word _, ?_, ?_, hcalled.dispatcher, hcalled.function, ?_, haligned rfl,
    hcalled.env, ?_⟩
  · rw [← List.map_append]
    refine decode?_ne_blr ?_
    intro i hi r
    rcases List.mem_append.mp hi with hi | hi
    · exact Machine.ne_blr_of_performAll hrun hi r
    rcases List.mem_append.mp hi with hi | hi
    · rcases List.mem_append.mp hi with hi | hi
      · exact passResult_ne_blr _ i hi r
      · exact Machine.ne_blr_of_performAll hclosing hi r
    · obtain rfl := List.mem_singleton.mp hi
      exact Instr.noConfusion
  · rw [List.length_map]
    exact Code.runs_from_base (c := ⟨base, words⟩) _ hwords hlength hrun
  · have hread := hcalled.read_tags
    rwa [hp.signature] at hread
  · intro earlier tag later hargs hne
    exact hcalled.delivers _ (hp.mem_placements_iff.mpr ⟨earlier, tag, later, hargs, rfl⟩)
      (location_ne_first hargs hp.environment hne)

/-- Integers and floats that find no register, for the caller and for the dispatcher. -/
def crowded : Signature :=
  ⟨([.pointer, .pointer, .int, .long, .uint, .ulong, .short, .byte, .ubyte] : List Tag) ++
    List.replicate 9 .float ++ [.double, .float], .double⟩

/-- The double arrives on the stack and leaves on the stack, two slots further up. -/
theorem runs_to_call_crowded : ∃ words pc m touched, assemble crowded ⟨1, 2, 3⟩ = .ok words ∧
    Code.Runs (BitVec.setWidth 64) ⟨0x1000, words⟩
      ⟨0x1000, ⟨fun _ => 0x8000, fun _ => 9, fun a => UInt8.ofNat a.toNat⟩⟩ touched ⟨pc, m⟩ ∧
    m.x .ip0 = 2 ∧ m.x .r0 = 3 ∧ m.x (reg 2) = 1 ∧
    m.memory.load (m.x .sp + 32) 8 = 0x1716151413121110 := by
  obtain ⟨words, h⟩ : ∃ words, assemble crowded ⟨1, 2, 3⟩ = .ok words :=
    Checked.exists_ok_of_isOk (by decide +kernel)
  obtain ⟨before, call, after, m, touched, -, -, -, hruns, hdispatcher, hfunction, -, -, henv,
    hdelivers⟩ := runs_to_call h (BitVec.setWidth 64) 0x1000
      (e := ⟨fun _ => 0x8000, fun _ => 9, fun a => UInt8.ofNat a.toNat⟩) rfl
  refine ⟨words, _, m, touched, h, hruns, hdispatcher, hfunction, henv, ?_⟩
  have hdouble := hdelivers (crowded.args.take 18) .double [.float] rfl (by decide)
  exact hdouble

end NativeBridge.Stub
