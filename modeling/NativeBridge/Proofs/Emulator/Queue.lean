import NativeBridge.Emulator

/-! # The queue of initializers

What an emulator promises about the queue of initializers that wait. A replay in a scope of its
own works on the empty queue that the scope begins with: it runs nothing, and the queue is
afterwards what it was before.
-/

namespace NativeBridge

/-- The initializers that wait in a world, those that have run, in order, and those in a queue
that is put aside. -/
structure QueueView (W Q I : Type) where
  waiting : W → List I
  ran : W → List I
  aside : Q → List I

variable {W Q I : Type}

def QueueView.Same (v : QueueView W Q I) (w w' : W) : Prop :=
  v.waiting w' = v.waiting w ∧ v.ran w' = v.ran w

theorem QueueView.Same.trans {v : QueueView W Q I} {w w' w'' : W} (h : v.Same w w')
    (h' : v.Same w' w'') : v.Same w w'' :=
  ⟨h'.1.trans h.1, h'.2.trans h.2⟩

namespace Emulator

/-- What an emulator promises: a load only puts initializers at the end of the current queue, and
a replay runs all that wait there and takes them out. -/
structure KeepsQueue (e : Emulator W Q) (v : QueueView W Q I) : Prop where
  load : ∀ name flags w, v.waiting w <+: v.waiting (e.load name flags w).2 ∧
    v.ran (e.load name flags w).2 = v.ran w
  suspendQueue : ∀ w, v.aside (e.suspendQueue w).1 = v.waiting w ∧
    v.waiting (e.suspendQueue w).2 = [] ∧ v.ran (e.suspendQueue w).2 = v.ran w
  replayQueue : ∀ w, v.waiting (e.replayQueue w).2 = [] ∧
    v.ran (e.replayQueue w).2 = v.ran w ++ v.waiting w
  restoreQueue : ∀ q w, v.waiting (e.restoreQueue q w).2 = v.aside q ∧
    v.ran (e.restoreQueue q w).2 = v.ran w

theorem replayInScope_eq (e : Emulator W Q) (w : W) :
    (e.replayInScope w).2 =
      (e.restoreQueue (e.suspendQueue w).1 (e.replayQueue (e.suspendQueue w).2).2).2 := rfl

theorem KeepsQueue.same_replayInScope {e : Emulator W Q} {v : QueueView W Q I}
    (he : e.KeepsQueue v) (w : W) : v.Same w (e.replayInScope w).2 := by
  obtain ⟨haside, hempty, hran⟩ := he.suspendQueue w
  obtain ⟨-, hreplayed⟩ := he.replayQueue (e.suspendQueue w).2
  obtain ⟨hrestored, hkept⟩ :=
    he.restoreQueue (e.suspendQueue w).1 (e.replayQueue (e.suspendQueue w).2).2
  rw [QueueView.Same, replayInScope_eq]
  constructor
  · rw [hrestored, haside]
  · rw [hkept, hreplayed, hempty, List.append_nil, hran]

end Emulator

/-- A world that holds the initializers that wait and those that have run, and nothing else. -/
structure QueueWorld where
  waiting : List String
  ran : List String
  deriving DecidableEq, Repr

namespace QueueWorld

def view : QueueView QueueWorld (List String) String :=
  ⟨waiting, ran, id⟩

def emulator (appended : List String) : Emulator QueueWorld (List String) where
  load := fun _ _ w => (.ok 0x5000, { w with waiting := w.waiting ++ appended })
  findSymbol := fun _ _ => pure none
  wrappedEnv := pure 0
  callEntry := pure 0
  suspendQueue := fun w => (w.waiting, { w with waiting := [] })
  replayQueue := fun w => ((), ⟨[], w.ran ++ w.waiting⟩)
  restoreQueue := fun saved w => ((), { w with waiting := saved })

theorem keepsQueue_emulator (appended : List String) : (emulator appended).KeepsQueue view where
  load := fun _ _ _ => ⟨List.prefix_append .., rfl⟩
  suspendQueue := fun _ => ⟨rfl, rfl, rfl⟩
  replayQueue := fun _ => ⟨rfl, rfl⟩
  restoreQueue := fun _ _ => ⟨rfl, rfl⟩

end QueueWorld

end NativeBridge
