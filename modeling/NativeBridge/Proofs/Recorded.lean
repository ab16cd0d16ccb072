import NativeBridge.Proofs.Action

/-! # Recorded actions

A recorded world keeps the calls that were made in it, in order and with their answers. An action
there is traced by an action of the world itself if both do the same to the world and answer the
same, and if the calls of the first are as they are claimed to be.
-/

namespace NativeBridge

variable {W C K α β : Type}

/-- A world and the calls that were made in it. -/
structure Recorded (W C : Type) where
  world : W
  calls : List C

/-- Notices are no calls. -/
instance [Journal W] : Journal (Recorded W C) where
  take n r := { r with world := Journal.take n r.world }

def recording (action : StateM W α) (call : α → C) : StateM (Recorded W C) α := fun r =>
  ((action r.world).1, ⟨(action r.world).2, r.calls ++ [call (action r.world).1]⟩)

/-- An action in a record with knowledge beside it, as an action in a record of both. -/
def joined (x : StateM (Recorded W C × K) α) : StateM (Recorded (W × K) C) α := fun r =>
  let out := x (⟨r.world.1, r.calls⟩, r.world.2)
  (out.1, ⟨(out.2.1.world, out.2.2), out.2.1.calls⟩)

theorem joined_bind (x : StateM (Recorded W C × K) α) (f : α → StateM (Recorded W C × K) β) :
    joined (x >>= f) = joined x >>= fun a => joined (f a) := rfl

/-- Whether a recorded action does in a world what another action does there, whatever the calls
before, and makes calls of which `P` is true together with the answer. -/
def Traced (w : W) (recorded : StateM (Recorded W C) α) (action : StateM W α)
    (P : α → List C → Prop) : Prop :=
  ∃ calls, (∀ earlier, recorded ⟨w, earlier⟩ = ((action w).1, ⟨(action w).2, earlier ++ calls⟩)) ∧
    P (action w).1 calls

namespace Traced

variable {w : W} {x : StateM W α} {y : StateM (Recorded W C) α} {f : α → StateM W β}
  {g : α → StateM (Recorded W C) β} {P P' : α → List C → Prop} {R : β → List C → Prop}
  {call : α → C}

theorem pure {a : α} (h : P a []) :
    Traced w (Pure.pure a : StateM (Recorded W C) α) (Pure.pure a) P := by
  refine ⟨[], fun earlier => ?_, h⟩
  rw [List.append_nil]
  rfl

/-- An action that ends after the calls made so far. -/
theorem done {a : α} {calls : List C} (h : P a calls) :
    Traced w (Pure.pure a : StateM (Recorded W C) α) (Pure.pure a) fun b more =>
      P b (calls ++ more) :=
  pure (by rwa [List.append_nil])

theorem mono (h : Traced w y x P) (hP : ∀ calls, P (x w).1 calls → P' (x w).1 calls) :
    Traced w y x P' := by
  obtain ⟨calls, hrun, hcalls⟩ := h
  exact ⟨calls, hrun, hP calls hcalls⟩

theorem bind (hx : Traced w y x P)
    (hf : ∀ calls, P (x w).1 calls →
      Traced (x w).2 (g (x w).1) (f (x w).1) fun b more => R b (calls ++ more)) :
    Traced w (y >>= g) (x >>= f) R := by
  obtain ⟨calls, hrun, hcalls⟩ := hx
  obtain ⟨more, hmore, hR⟩ := hf calls hcalls
  refine ⟨calls ++ more, fun earlier => ?_, hR⟩
  rw [Action.bind_apply, hrun, hmore, List.append_assoc]
  rfl

theorem recording (h : P (x w).1 [call (x w).1]) : Traced w (recording x call) x P :=
  ⟨[call (x w).1], fun _ => rfl, h⟩

/-- What follows a call is traced from the world that the call leaves. -/
theorem recording_bind
    (h : Traced (x w).2 (g (x w).1) (f (x w).1) fun b more => R b (call (x w).1 :: more)) :
    Traced w (NativeBridge.recording x call >>= g) (x >>= f) R :=
  bind (P := fun a calls => calls = [call a]) (recording rfl) fun _ hcalls => hcalls ▸ h

theorem note_bind [Journal W] {n : Notice} {g : Unit → StateM (Recorded W C) β}
    {f : Unit → StateM W β} (h : Traced (Journal.take n w) (g ()) (f ()) R) :
    Traced w (note n >>= g) (note n >>= f) R := by
  obtain ⟨calls, hrun, hcalls⟩ := h
  exact ⟨calls, hrun, hcalls⟩

theorem note [Journal W] {n : Notice} {P : Unit → List C → Prop} (h : P () []) :
    Traced (C := C) w (NativeBridge.note n) (NativeBridge.note n) P := by
  refine ⟨[], fun earlier => ?_, h⟩
  rw [List.append_nil]
  rfl

/-- An action that does in one world what it does in another, but for a call that it makes first. -/
theorem of_call {w' : W} (c : C) (hx : x w = x w')
    (hy : ∀ earlier, y ⟨w, earlier⟩ = y ⟨w', earlier ++ [c]⟩)
    (h : Traced w' y x fun a more => P a (c :: more)) : Traced w y x P := by
  obtain ⟨calls, hrun, hcalls⟩ := h
  refine ⟨c :: calls, fun earlier => ?_, ?_⟩
  · rw [hy, hrun, hx, List.append_assoc]
    rfl
  · rwa [hx]

/-- The calls from an empty record. -/
theorem calls (h : Traced w y x P) : P (x w).1 (y ⟨w, []⟩).2.calls := by
  obtain ⟨calls, hrun, hcalls⟩ := h
  rw [hrun []]
  exact hcalls

/-- The record grows by the calls from an empty one. -/
theorem run (h : Traced w y x P) (earlier : List C) :
    y ⟨w, earlier⟩ = ((x w).1, ⟨(x w).2, earlier ++ (y ⟨w, []⟩).2.calls⟩) := by
  obtain ⟨calls, hrun, -⟩ := h
  rw [hrun [], hrun earlier]
  rfl

end Traced

end NativeBridge
