import NativeBridge.Proofs.Emulator.Queue
import NativeBridge.Proofs.Linker.Calls

/-! # Nested scopes

Scopes that are entered and left one inside the other, with replays and any other changes of the
world between. Each scope hands back the queue that it put aside, and the queue is afterwards what
it was before.
-/

namespace NativeBridge

variable {W Q I : Type}

namespace Emulator

/-- What an emulator promises of the queues that it puts aside: the current queue is put aside for
an empty one, and a queue that is handed back is current again. -/
structure SwapsQueue (e : Emulator W Q) (v : QueueView W Q I) : Prop where
  suspendQueue : ∀ w, v.aside (e.suspendQueue w).1 = v.waiting w ∧
    v.waiting (e.suspendQueue w).2 = []
  restoreQueue : ∀ saved w, v.waiting (e.restoreQueue saved w).2 = v.aside saved

theorem KeepsQueue.swapsQueue {e : Emulator W Q} {v : QueueView W Q I} (he : e.KeepsQueue v) :
    e.SwapsQueue v where
  suspendQueue w := ⟨(he.suspendQueue w).1, (he.suspendQueue w).2.1⟩
  restoreQueue saved w := (he.restoreQueue saved w).1

/-- What is done while scopes are open: an action on them, or a change of the world such as
initializers that are put off. -/
inductive ScopeStep (W : Type)
  | act (a : ScopeAction)
  | change (f : W → W)

namespace ScopeStep

abbrev enter : ScopeStep W := .act .enter

abbrev replay : ScopeStep W := .act .replay

abbrev leave : ScopeStep W := .act .leave

def recorded : ScopeStep W → ScopeStep (Recorded W (Call Q))
  | .act a => .act a
  | .change f => .change fun r => { r with world := f r.world }

end ScopeStep

def takeStep (e : Emulator W Q) (scopes : Scopes Q) : ScopeStep W → StateM W (Scopes Q)
  | .act a => e.act scopes a
  | .change f => do
    modify f
    return scopes

def takeSteps (e : Emulator W Q) (scopes : Scopes Q) (steps : List (ScopeStep W)) :
    StateM W (Scopes Q) :=
  steps.foldlM e.takeStep scopes

/-- Steps among `n` open scopes that leave each scope that they enter, and no other. There is
nothing to replay outside all scopes. -/
inductive WellNested : Nat → List (ScopeStep W) → Prop
  | nil {n : Nat} :
    WellNested n []
  | change {n : Nat} {others : List (ScopeStep W)} (f : W → W) :
    WellNested n others → WellNested n (.change f :: others)
  | replay {n : Nat} {others : List (ScopeStep W)} :
    WellNested (n + 1) others → WellNested (n + 1) (.replay :: others)
  | scope {n : Nat} {body others : List (ScopeStep W)} :
    WellNested (n + 1) body → WellNested n others →
    WellNested n (.enter :: (body ++ .leave :: others))

/-- How many scopes are open after steps, unless a step would replay in a scope or leave one where
none is open. -/
def openAfter : Nat → List (ScopeStep W) → Option Nat
  | n, [] => some n
  | n, .change _ :: others => openAfter n others
  | n, .act .enter :: others => openAfter (n + 1) others
  | n + 1, .act .replay :: others => openAfter (n + 1) others
  | n + 1, .act .leave :: others => openAfter n others
  | 0, .act .replay :: _ | 0, .act .leave :: _ => none

/-- Steps that leave `n` open scopes, one after the other, and are well nested between. -/
inductive Closing : Nat → List (ScopeStep W) → Prop
  | top {steps : List (ScopeStep W)} :
    WellNested 0 steps → Closing 0 steps
  | leave {n : Nat} {body others : List (ScopeStep W)} :
    WellNested (n + 1) body → Closing n others → Closing (n + 1) (body ++ .leave :: others)

theorem Closing.change {n : Nat} {others : List (ScopeStep W)} (f : W → W)
    (h : Closing n others) : Closing n (.change f :: others) := by
  cases h with
  | top h => exact .top (.change f h)
  | leave hbody h => exact .leave (.change f hbody) h

theorem Closing.replay {n : Nat} {others : List (ScopeStep W)} (h : Closing (n + 1) others) :
    Closing (n + 1) (.replay :: others) := by
  cases h with
  | leave hbody h => exact .leave (.replay hbody) h

theorem Closing.enter {n : Nat} {others : List (ScopeStep W)} (h : Closing (n + 1) others) :
    Closing n (.enter :: others) := by
  cases h with
  | leave hbody h =>
    cases h with
    | top h => exact .top (.scope hbody h)
    | leave hbody' h =>
      have hclosing := Closing.leave (.scope hbody hbody') h
      rwa [List.cons_append, List.append_assoc, List.cons_append] at hclosing

theorem closing_of_openAfter {n : Nat} {steps : List (ScopeStep W)}
    (h : openAfter n steps = some 0) : Closing n steps := by
  fun_induction openAfter n steps with
  | case1 n =>
    cases h
    exact .top .nil
  | case2 n f others ih => exact (ih h).change f
  | case3 n others ih => exact (ih h).enter
  | case4 n others ih => exact (ih h).replay
  | case5 n others ih => exact .leave .nil (ih h)
  | case6 => cases h
  | case7 => cases h

theorem WellNested.openAfter_append {n : Nat} {steps : List (ScopeStep W)} (h : WellNested n steps)
    (others : List (ScopeStep W)) : openAfter n (steps ++ others) = openAfter n others := by
  induction h generalizing others with
  | nil => rfl
  | change f _ ih => exact ih others
  | replay _ ih => exact ih others
  | scope _ _ ihbody ih =>
    rw [List.cons_append, List.append_assoc, openAfter, ihbody]
    exact ih others

/-- Steps are well nested if a count of the open scopes comes back to zero and is never below. -/
theorem wellNested_zero_iff {steps : List (ScopeStep W)} :
    WellNested 0 steps ↔ openAfter 0 steps = some 0 := by
  constructor
  · intro h
    rw [← List.append_nil steps, h.openAfter_append]
    rfl
  · intro h
    cases closing_of_openAfter h with
    | top h => exact h

instance (steps : List (ScopeStep W)) : Decidable (WellNested 0 steps) :=
  decidable_of_iff _ wellNested_zero_iff.symm

/-- The calls of well-nested steps. A scope hands back the queue that it put aside, once, after
all that is done in it. -/
inductive ScopeCalls : List (ScopeStep W) → List (Call Q) → Prop
  | nil :
    ScopeCalls [] []
  | change {others : List (ScopeStep W)} {calls : List (Call Q)} (f : W → W) :
    ScopeCalls others calls → ScopeCalls (.change f :: others) calls
  | replay {others : List (ScopeStep W)} {calls : List (Call Q)} :
    ScopeCalls others calls → ScopeCalls (.replay :: others) (.emulator .replayQueue :: calls)
  | scope {body others : List (ScopeStep W)} {inner calls : List (Call Q)} (saved : Q) :
    ScopeCalls body inner → ScopeCalls others calls →
    ScopeCalls (.enter :: (body ++ .leave :: others))
      (.emulator (.suspendQueue saved) :: (inner ++ .emulator (.restoreQueue saved) :: calls))

variable {e : Emulator W Q} {scopes : Scopes Q} {w : W}

theorem takeSteps_cons (step : ScopeStep W) (others : List (ScopeStep W)) :
    e.takeSteps scopes (step :: others) =
      e.takeStep scopes step >>= fun scopes => e.takeSteps scopes others :=
  List.foldlM_cons ..

theorem takeSteps_append (steps others : List (ScopeStep W)) :
    e.takeSteps scopes (steps ++ others) =
      e.takeSteps scopes steps >>= fun scopes => e.takeSteps scopes others :=
  List.foldlM_append ..

theorem takeSteps_enter_cons (others : List (ScopeStep W)) :
    e.takeSteps scopes (.enter :: others) =
      e.suspendQueue >>= fun saved => e.takeSteps (saved :: scopes) others := by
  rw [takeSteps_cons]
  rfl

theorem takeSteps_replay_cons (saved : Q) (others : List (ScopeStep W)) :
    e.takeSteps (saved :: scopes) (.replay :: others) =
      e.replayQueue >>= fun _ => e.takeSteps (saved :: scopes) others := by
  rw [takeSteps_cons]
  rfl

theorem takeSteps_leave_cons (saved : Q) (others : List (ScopeStep W)) :
    e.takeSteps (saved :: scopes) (.leave :: others) =
      e.restoreQueue saved >>= fun _ => e.takeSteps scopes others := by
  rw [takeSteps_cons]
  rfl

/-- Well-nested steps keep the scopes that were open before them. -/
theorem takeSteps_traced {n : Nat} {steps : List (ScopeStep W)} (h : WellNested n steps)
    (hlength : scopes.length = n) :
    Traced w (e.recorded.takeSteps scopes (steps.map .recorded)) (e.takeSteps scopes steps)
      fun open_ calls => open_ = scopes ∧ ScopeCalls (Q := Q) steps calls := by
  induction h generalizing scopes w with
  | nil => exact .pure ⟨rfl, .nil⟩
  | change f _ ih =>
    obtain ⟨calls, hrun, hopen, hcalls⟩ := ih (w := f w) hlength
    exact ⟨calls, hrun, hopen, .change f hcalls⟩
  | replay _ ih =>
    obtain ⟨saved, outer, rfl⟩ := List.exists_cons_of_length_eq_add_one hlength
    change Traced w (e.recorded.takeSteps _ (.replay :: _)) _ _
    rw [takeSteps_replay_cons, takeSteps_replay_cons]
    apply Traced.bind replayQueue_traced
    rintro _ rfl
    exact (ih hlength).mono fun _ h => ⟨h.1, .replay h.2⟩
  | scope _ _ ihbody ihothers =>
    rw [List.map_cons, List.map_append, List.map_cons]
    change Traced w (e.recorded.takeSteps _ (.enter :: (_ ++ .leave :: _))) _ _
    rw [takeSteps_enter_cons, takeSteps_enter_cons]
    apply Traced.recording_bind
    rw [takeSteps_append, takeSteps_append]
    apply Traced.bind (ihbody (congrArg (· + 1) hlength))
    rintro inner ⟨hopen, hinner⟩
    rw [hopen, takeSteps_leave_cons, takeSteps_leave_cons]
    apply Traced.bind restoreQueue_traced
    rintro _ rfl
    apply (ihothers hlength).mono
    exact fun _ h => ⟨h.1, .scope _ hinner h.2⟩

/-- After a scope the queue is what it was just before. -/
theorem waiting_takeSteps_scope {v : QueueView W Q I} (he : e.SwapsQueue v)
    {body : List (ScopeStep W)} (h : WellNested (scopes.length + 1) body) :
    v.waiting (e.takeSteps scopes (.enter :: (body ++ [.leave])) w).2 = v.waiting w := by
  have hopen : (e.takeSteps ((e.suspendQueue w).1 :: scopes) body (e.suspendQueue w).2).1 =
      (e.suspendQueue w).1 :: scopes := (takeSteps_traced h rfl).calls.1
  rw [takeSteps_enter_cons, Action.bind_apply, takeSteps_append, Action.bind_apply, hopen,
    takeSteps_leave_cons]
  calc v.waiting (e.restoreQueue (e.suspendQueue w).1 _).2
      = v.aside (e.suspendQueue w).1 := he.restoreQueue _ _
    _ = v.waiting w := (he.suspendQueue w).1

end Emulator

end NativeBridge
