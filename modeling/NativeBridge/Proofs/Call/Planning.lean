import NativeBridge.Proofs.Call.Convention

/-! # Which calls can be planned

A call can be planned when its first argument is the environment, no argument is void, and the
stack pointer can be moved by the size of the frame. The last argument that arrives on the stack
arrives there last, so that its offset tells how many do.
-/

namespace NativeBridge

def Location.Serves : Location → RegisterClass → Prop
  | .intReg _, c => c = .integer
  | .floatReg _, c => c = .float
  | .stack _, _ => True

namespace Call

open Checked

theorem location_serves (taken : Nat) (earlier : List Tag) (tag : Tag) :
    (location taken earlier tag).Serves tag.registerClass := by
  cases h : location taken earlier tag with
  | intReg r => exact (location_eq_intReg_iff.mp h).1
  | floatReg r => exact (location_eq_floatReg_iff.mp h).1
  | stack offset => trivial

theorem exists_last_slot {taken : Nat} {args : List Tag} (htaken : taken ≤ 8)
    (h : 0 < spilled taken args) : ∃ earlier tag later, args = earlier ++ tag :: later ∧
      location taken earlier tag = .stack (8 * (spilled taken args - 1)) := by
  induction args using List.reverseRecOn with
  | nil =>
    rw [spilled, integers_nil, floats_nil] at h
    omega
  | append_singleton earlier tag ih =>
    rw [spilled_snoc] at h ⊢
    cases hloc : location taken earlier tag with
    | stack offset =>
      obtain rfl := (stack_slot [] hloc).1
      exact ⟨earlier, tag, [], rfl, hloc⟩
    | intReg r | floatReg r =>
      rw [hloc] at h
      obtain ⟨before, tag', later, rfl, hlast⟩ := ih h
      exact ⟨before, tag', later ++ [tag], by simp, hlast⟩

/-- The bytes of a frame: a slot for each argument that is passed on in one, the frame record and
the tag string with its zero byte, in whole units of 16 bytes. -/
def frameSize (args : List Tag) : Nat :=
  (8 * spilled reservedInts args + 16 + (args.length + 1) + 15) / 16 * 16

theorem frameSize_le (args : List Tag) :
    frameSize args ≤ 8 * spilled reservedInts args + args.length + 32 := by
  unfold frameSize
  omega

theorem le_frameSize (args : List Tag) :
    8 * spilled reservedInts args + 16 + (args.length + 1) ≤ frameSize args := by
  unfold frameSize
  omega

theorem sixteen_dvd_frameSize (args : List Tag) : 16 ∣ frameSize args :=
  Nat.dvd_mul_left ..

theorem plan_eq (sig : Signature) : plan sig =
    if sig.args.head? ≠ some .pointer then .error (.noEnvironment sig) else
    if .void ∈ sig.args then .error (.voidArgument sig) else
    (Frame.ofBytes (8 * spilled reservedInts sig.args) (sig.args.length + 1)).map
      fun frame => ⟨sig, placementsAfter [] sig.args, frame⟩ := by
  obtain ⟨hplacements, -, htargets⟩ := foldl_push [] (p := .empty) rfl rfl sig.args
  unfold plan
  simp only [hplacements, htargets]
  rfl

/-- What the frame for so many bytes is like. -/
theorem ofBytes_eq_ok {outgoing tagBytes : Nat} {f : Frame}
    (h : Frame.ofBytes outgoing tagBytes = .ok f) :
    f.size = Frame.aligned (outgoing + Frame.recordBytes + tagBytes) ∧
      (f.shape = .preIndexed → f.size ≤ Frame.pairLimit) := by
  unfold Frame.ofBytes at h
  dsimp only at h
  split at h
  · next hpre =>
    obtain rfl := Except.ok.inj h
    exact ⟨rfl, fun _ => hpre.2⟩
  · split at h
    · obtain rfl := Except.ok.inj h
      exact ⟨rfl, fun hshape => by cases hshape⟩
    · cases h

theorem accepted_ofBytes_iff {outgoing tagBytes : Nat} :
    Accepted (Frame.ofBytes outgoing tagBytes) ↔
      Frame.aligned (outgoing + Frame.recordBytes + tagBytes) ≤ Arm64.wideLimit := by
  unfold Frame.ofBytes
  dsimp only
  split
  · next hpre =>
    have hlimit : Frame.pairLimit ≤ Arm64.wideLimit := by decide
    exact iff_of_true (accepted_ok _) (Nat.le_trans hpre.2 hlimit)
  · split
    · next hsize => exact iff_of_true (accepted_ok _) hsize
    · next hsize => exact iff_of_false (not_accepted_error _) hsize

theorem accepted_plan_iff {sig : Signature} : Accepted (plan sig) ↔
    sig.args.head? = some .pointer ∧ .void ∉ sig.args ∧ frameSize sig.args ≤ 0xFFFFFF := by
  rw [plan_eq]
  split
  · next hhead => simp [hhead]
  · next hhead =>
    rw [ne_eq, Decidable.not_not] at hhead
    split
    · next hvoid => simp [hvoid]
    · next hvoid =>
      rw [accepted_map_iff, accepted_ofBytes_iff]
      simp only [hhead, hvoid, not_false_iff, true_and]
      rfl

/-- What is known of a plan beside what it is laid out for. -/
theorem frame_of_plan {sig : Signature} {p : Plan} (h : plan sig = .ok p) :
    .void ∉ sig.args ∧ p.frame.size = frameSize sig.args ∧
      (p.frame.shape = .preIndexed → p.frame.size ≤ Frame.pairLimit) := by
  obtain ⟨hhead, hvoid, -⟩ := accepted_plan_iff.mp ⟨p, h⟩
  rw [plan_eq, if_neg (not_not.mpr hhead), if_neg hvoid] at h
  obtain ⟨frame, hframe, rfl⟩ := map_eq_ok_iff.mp h
  exact ⟨hvoid, ofBytes_eq_ok hframe⟩

/-- Why a call cannot be planned. -/
inductive Unplannable (sig : Signature) : StubDefect → Prop
  | environment : sig.args.head? ≠ some .pointer → Unplannable sig (.noEnvironment sig)
  | void : .void ∈ sig.args → Unplannable sig (.voidArgument sig)
  | frame : 0xFFFFFF < frameSize sig.args → Unplannable sig
      (.frameTooLarge (frameSize sig.args) (8 * spilled reservedInts sig.args))

theorem plan_refusedOnly (sig : Signature) : RefusedOnly (Unplannable sig) (plan sig) := by
  rw [plan_eq]
  split
  · next hhead => exact .error (.environment hhead)
  · split
    · next hvoid => exact .error (.void hvoid)
    · refine RefusedOnly.map ?_ _
      unfold Frame.ofBytes
      dsimp only
      split
      · exact .ok _
      · split
        · exact .ok _
        · next hsize => exact .error (.frame (Nat.lt_of_not_le hsize))

end Call

end NativeBridge
