import NativeBridge.Linker.Opening
import NativeBridge.Proofs.Linker.Calls

/-! # Calls of an open

What an open asks of the platform and the emulator, what it answers and what it leaves of the
linker, for all answers of the collaborators.
-/

namespace NativeBridge

variable {W Q : Type}

namespace Emulator

theorem replayInScope_eq_bind (e : Emulator W Q) :
    e.replayInScope = (do
      let saved ← e.suspendQueue
      e.replayQueue
      e.restoreQueue saved) := rfl

theorem replayInScope_traced {e : Emulator W Q} {w : W} :
    Traced w e.recorded.replayInScope e.replayInScope fun _ calls =>
      ∃ saved, calls = [.emulator (.suspendQueue saved), .emulator .replayQueue,
        .emulator (.restoreQueue saved)] := by
  rw [replayInScope_eq_bind, replayInScope_eq_bind]
  apply Traced.recording_bind
  apply Traced.bind replayQueue_traced
  rintro _ rfl
  apply restoreQueue_traced.mono
  rintro _ rfl
  exact ⟨_, rfl⟩

end Emulator

namespace Linker

/-- An attempt at loading a library into the emulator. -/
inductive Loading (name : String) (flags : Int32) :
    Except LoadDefect Binding → List (Call Q) → Prop
  | refused (reason : String) :
    Loading name flags (.error (.refused reason))
      [.emulator (.load name (.ofOpenFlags flags) (.error reason))]
  | nullHandle :
    Loading name flags (.error .nullHandle)
      [.emulator (.load name (.ofOpenFlags flags) (.ok 0))]
  | loaded {handle : UInt64} (saved : Q) :
    handle ≠ 0 →
    Loading name flags (.ok ⟨handle, .emulated⟩)
      [.emulator (.load name (.ofOpenFlags flags) (.ok handle)), .emulator (.suspendQueue saved),
        .emulator .replayQueue, .emulator (.restoreQueue saved)]

/-- An attempt at opening a build for the host's processor that is there. -/
inductive Opening (path : String) (flags : Int32) (caller : UInt64) :
    Except LoadDefect Binding → List (Call Q) → Prop
  | unnameable :
    '\x00' ∈ path.toList → Opening path flags caller (.error (.unopened path)) []
  | unopened :
    '\x00' ∉ path.toList →
    Opening path flags caller (.error (.unopened path))
      [.platform (.openLibrary (some (Text.encode path)) flags caller none)]
  | opened (handle : UInt64) :
    '\x00' ∉ path.toList →
    Opening path flags caller (.ok ⟨handle, .native⟩)
      [.platform (.openLibrary (some (Text.encode path)) flags caller (some handle))]

/-- The first open of a library. The path is where a build for the host's processor would be. -/
inductive Attempt (path name : String) (flags : Int32) (caller : UInt64) :
    Policy → Except LoadDefect Binding → List (Call Q) → Prop
  | emulated {out : Except LoadDefect Binding} {calls : List (Call Q)} :
    Loading name flags out calls → Attempt path name flags caller .alwaysEmulated out calls
  | native {out : Except LoadDefect Binding} {calls : List (Call Q)} :
    Opening path flags caller out calls →
    Attempt path name flags caller .preferNative out
      (.platform (.hasFile path true) :: calls)
  | noNativeBuild {out : Except LoadDefect Binding} {calls : List (Call Q)} :
    Loading name flags out calls →
    Attempt path name flags caller .preferNative out
      (.platform (.hasFile path false) :: calls)

section Attempts

variable {path name : String} {flags : Int32} {caller handle : UInt64} {policy : Policy}
  {out : Except LoadDefect Binding} {calls : List (Call Q)}

/-- Where there is a build for the host's processor, the emulator is not asked. -/
theorem Attempt.no_emulator {path' : String}
    (h : Attempt path name flags caller policy out calls)
    (hfile : .platform (.hasFile path' true) ∈ calls) : ∀ c, .emulator c ∉ calls := by
  cases h with
  | emulated h => cases h <;> simp at hfile
  | noNativeBuild h => cases h <;> simp at hfile
  | native h => cases h <;> simp

/-- A native binding is one that the library prefers and the platform opened. -/
theorem Attempt.native_eq
    (h : Attempt path name flags caller policy (.ok ⟨handle, .native⟩) calls) :
    policy = .preferNative ∧
      calls = [.platform (.hasFile path true),
        .platform (.openLibrary (some (Text.encode path)) flags caller (some handle))] := by
  cases h with
  | emulated h => cases h
  | noNativeBuild h => cases h
  | native h =>
    cases h with
    | opened => exact ⟨rfl, rfl⟩

end Attempts

/-- An open of a known library. -/
inductive KnownOpened (l : Linker) (lib : Library) (name : String) (flags : Int32)
    (caller : UInt64) : Option UInt64 × Linker → List (Call Q) → Prop
  | repeated {b : Binding} :
    (l.slot lib.index).binding? = some b →
    KnownOpened l lib name flags caller (some b.handle, l) []
  | bound {b : Binding} {calls : List (Call Q)} :
    (l.slot lib.index).binding? = none →
    Attempt (nativePath l.config name) name flags caller lib.policy (.ok b) calls →
    KnownOpened l lib name flags caller (some b.handle, l.withBinding lib.index b) calls
  | failed {defect : LoadDefect} {calls : List (Call Q)} :
    (l.slot lib.index).binding? = none →
    Attempt (nativePath l.config name) name flags caller lib.policy (.error defect) calls →
    KnownOpened l lib name flags caller (none, l) calls

/-- An open. -/
inductive Opened (l : Linker) (flags : Int32) (caller : UInt64) :
    Option RawName → Option UInt64 × Linker → List (Call Q) → Prop
  | program (answer : Option UInt64) :
    Opened l flags caller none (answer, l)
      [.platform (.openLibrary none flags caller answer)]
  | known {raw : RawName} {lib : Library} {out : Option UInt64 × Linker} {calls : List (Call Q)} :
    Library.forFilename? (Text.decodeLossy raw) = some lib →
    KnownOpened l lib (Text.decodeLossy raw) flags caller out calls →
    Opened l flags caller (some raw) out calls
  | redirected {raw : RawName} {handle : UInt64} :
    Library.forFilename? (Text.decodeLossy raw) = none →
    l.vulkanLoaderFor? (Text.decodeLossy raw) = some handle →
    Opened l flags caller (some raw) (some handle, l) []
  | passed {raw : RawName} (answer : Option UInt64) :
    Library.forFilename? (Text.decodeLossy raw) = none →
    l.vulkanLoaderFor? (Text.decodeLossy raw) = none →
    Opened l flags caller (some raw) (answer, l)
      [.platform (.openLibrary (some raw) flags caller answer)]

variable {host : Host W Q} {w : W} {flags : Int32} {caller : UInt64}

theorem openEmulated_traced (name : String) :
    Traced w (openEmulated host.recorded name flags) (openEmulated host name flags)
      (Loading (Q := Q) name flags) := by
  refine .recording_bind ?_
  cases hload : (host.emulator.load name (.ofOpenFlags flags) w).1 with
  | error reason => exact .pure (.refused reason)
  | ok handle =>
    dsimp only
    by_cases hnull : handle = 0
    · rw [if_pos hnull, if_pos hnull, hnull]
      exact .pure .nullHandle
    · rw [if_neg hnull, if_neg hnull]
      refine .bind Emulator.replayInScope_traced fun calls hcalls => ?_
      obtain ⟨saved, rfl⟩ := hcalls
      exact .done (Loading.loaded saved hnull)

theorem openNative_traced (path : String) :
    Traced w (openNative host.recorded path flags caller) (openNative host path flags caller)
      (Opening (Q := Q) path flags caller) := by
  unfold openNative
  by_cases hzero : '\x00' ∈ path.toList
  · rw [if_pos hzero, if_pos hzero]
    exact .pure (.unnameable hzero)
  · rw [if_neg hzero, if_neg hzero]
    refine .recording_bind ?_
    cases (host.platform.openLibrary (some (Text.encode path)) flags caller w).1 with
    | none => exact .pure (.unopened hzero)
    | some handle => exact .pure (.opened handle hzero)

variable [Journal W] {l : Linker}

theorem bind_traced (config : Config) (policy : Policy) (name : String) :
    Traced w (Linker.bind host.recorded config policy name flags caller)
      (Linker.bind host config policy name flags caller)
      (Attempt (Q := Q) (nativePath config name) name flags caller policy) := by
  cases policy with
  | alwaysEmulated => exact (openEmulated_traced name).mono fun _ => .emulated
  | preferNative =>
    refine .recording_bind ?_
    cases (host.platform.hasFile (nativePath config name) w).1 with
    | true => exact (openNative_traced _).mono fun _ => .native
    | false => exact .note_bind ((openEmulated_traced name).mono fun _ => .noNativeBuild)

theorem openKnown_traced (lib : Library) (name : String) :
    Traced w (openKnown host.recorded l lib name flags caller)
      (openKnown host l lib name flags caller)
      (KnownOpened (Q := Q) l lib name flags caller) := by
  unfold openKnown
  cases hslot : (l.slot lib.index).binding? with
  | some b => exact .pure (.repeated hslot)
  | none =>
    refine .bind (bind_traced l.config lib.policy name) fun calls hcalls => ?_
    cases hout : (Linker.bind host l.config lib.policy name flags caller w).1 with
    | error defect =>
      rw [hout] at hcalls
      exact .note_bind (.done (.failed hslot hcalls))
    | ok b =>
      rw [hout] at hcalls
      exact .done (.bound hslot hcalls)

theorem openLibrary_traced (name? : Option RawName) :
    Traced w (openLibrary host.recorded l name? flags caller)
      (openLibrary host l name? flags caller) (Opened (Q := Q) l flags caller name?) := by
  unfold openLibrary
  cases name? with
  | none => exact .recording_bind (.pure (.program _))
  | some raw =>
    dsimp only
    cases hlib : Library.forFilename? (Text.decodeLossy raw) with
    | some lib => exact (openKnown_traced lib _).mono fun _ => .known hlib
    | none =>
      dsimp only
      cases hvulkan : l.vulkanLoaderFor? (Text.decodeLossy raw) with
      | some handle => exact .pure (.redirected hlib hvulkan)
      | none => exact .recording_bind (.pure (.passed _ hlib hvulkan))

end Linker

end NativeBridge
