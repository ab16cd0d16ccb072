import Mathlib.Data.List.Induction
import NativeBridge.Proofs.Linker.Request

/-! # Runs of requests

A run of requests with everything that came of it. What the first request leaves is what the next
one meets, so that a property of all runs is one of the empty run that every request preserves.
-/

namespace NativeBridge.Linker

variable {W Q : Type} [Journal W]

/-- Requests to the linker `l` in the world `w`, their answers, what they leave behind and the
calls that were made for them. -/
structure Run (host : Host W Q) (l : Linker) (w : W) where
  requests : List Request
  answers : List Answer
  linker : Linker
  world : W
  calls : List (Call Q)
  performed :
    l.performAll host.recorded requests ⟨w, []⟩ = ((answers, linker), ⟨world, calls⟩)

omit [Journal W] in
theorem eq_of_create {config : Config} {pageSize : Nat} {l : Linker}
    (h : create config pageSize = .ok l) :
    l = { config
          cache := .empty config.cacheCapacity.toNat
          slots := .replicate 10 ⟨none, .empty pageSize⟩
          vulkanLoader := 0
          vulkanDriver := 0 } := by
  unfold create at h
  cases hvalid : config.validate with
  | error fault => rw [hvalid] at h; cases h
  | ok =>
    rw [hvalid] at h
    change (if pageSize = 0 then _ else _) = _ at h
    split at h
    · cases h
    · split at h
      · cases h
      · next cache hcache =>
        obtain rfl := Cache.eq_empty_of_reserve? hcache
        exact (Except.ok.inj h).symm

omit [Journal W] in
theorem create_eq_ok {config : Config} {pageSize : Nat} {l : Linker}
    (h : create config pageSize = .ok l) :
    l.config = config ∧ ∀ i, l.slot i = ⟨none, .empty pageSize⟩ := by
  obtain rfl := eq_of_create h
  refine ⟨rfl, fun i => ?_⟩
  change (Vector.replicate 10 _)[i.val] = _
  rw [Vector.getElem_replicate]

variable {host : Host W Q} {l l' l'' : Linker} {w w' w'' : W}

theorem performAll_cons {request : Request} {others : List Request} {answer : Answer}
    {answers : List Answer} (h : l.perform host request w = ((answer, l'), w'))
    (hothers : l'.performAll host others w' = ((answers, l''), w'')) :
    l.performAll host (request :: others) w = ((answer :: answers, l''), w'') := by
  rw [performAll, Action.bind_apply, h]
  dsimp only
  rw [Action.bind_apply, hothers]
  rfl

theorem performAll_append {earlier later : List Request} {answers others : List Answer}
    (h : l.performAll host earlier w = ((answers, l'), w'))
    (hlater : l'.performAll host later w' = ((others, l''), w'')) :
    l.performAll host (earlier ++ later) w = ((answers ++ others, l''), w'') := by
  induction earlier generalizing l w answers with
  | nil =>
    obtain ⟨hanswers, rfl⟩ := Prod.mk.inj h
    obtain ⟨rfl, rfl⟩ := Prod.mk.inj hanswers
    exact hlater
  | cons request earlier ih =>
    obtain ⟨hanswers, rfl⟩ := Prod.mk.inj h
    obtain ⟨rfl, rfl⟩ := Prod.mk.inj hanswers
    exact performAll_cons rfl (ih rfl)

theorem performAll_traced (requests : List Request) (l : Linker) (w : W) :
    Traced w (l.performAll host.recorded requests) (l.performAll host requests)
      fun _ _ => True := by
  induction requests generalizing l w with
  | nil => exact .pure trivial
  | cons request others ih =>
    refine .bind (perform_traced request) fun _ _ => ?_
    exact .bind (ih _ _) fun _ _ => .pure trivial

namespace Run

/-- Calls are taken down and nothing else is done about them. -/
theorem performed_unrecorded (run : Run host l w) :
    l.performAll host run.requests w = ((run.answers, run.linker), run.world) := by
  have h := run.performed
  rw [(performAll_traced run.requests l w).run []] at h
  obtain ⟨hanswers, hworld⟩ := Prod.mk.inj h
  obtain ⟨hworld, -⟩ := Recorded.mk.inj hworld
  exact Prod.ext hanswers hworld

theorem eq_of_requests_eq {run run' : Run host l w} (h : run.requests = run'.requests) :
    run = run' := by
  obtain ⟨requests, answers, l', w', calls, hrun⟩ := run
  obtain ⟨requests', answers', l'', w'', calls', hrun'⟩ := run'
  obtain rfl : requests = requests' := h
  obtain ⟨hanswers, hworld⟩ := Prod.mk.inj (hrun.symm.trans hrun')
  obtain ⟨rfl, rfl⟩ := Prod.mk.inj hanswers
  obtain ⟨rfl, rfl⟩ := Recorded.mk.inj hworld
  rfl

def nil (host : Host W Q) (l : Linker) (w : W) : Run host l w where
  requests := []
  answers := []
  linker := l
  world := w
  calls := []
  performed := rfl

def append (run : Run host l w) (later : Run host run.linker run.world) : Run host l w where
  requests := run.requests ++ later.requests
  answers := run.answers ++ later.answers
  linker := later.linker
  world := later.world
  calls := run.calls ++ later.calls
  performed := by
    refine performAll_append run.performed ?_
    rw [(performAll_traced later.requests run.linker run.world).run, later.performed,
      later.performed_unrecorded]

def single (host : Host W Q) (l : Linker) (w : W) (request : Request) : Run host l w where
  requests := [request]
  answers := [(l.perform host request w).1.1]
  linker := (l.perform host request w).1.2
  world := (l.perform host request w).2
  calls := (l.perform host.recorded request ⟨w, []⟩).2.calls
  performed := performAll_cons ((perform_traced request).run []) rfl

def next (run : Run host l w) (request : Request) : Run host l w :=
  run.append (single host run.linker run.world request)

theorem performed_next (run : Run host l w) (request : Request) :
    Performed host run.world run.linker request (run.linker.perform host request run.world).1
      (single host run.linker run.world request).calls :=
  (perform_traced request).calls

theorem induction {P : Run host l w → Prop} (nil : P (.nil host l w))
    (next : ∀ (run : Run host l w) (request : Request), P run → P (run.next request))
    (run : Run host l w) : P run := by
  have hall : ∀ requests : List Request, ∃ run : Run host l w, run.requests = requests ∧ P run := by
    intro requests
    induction requests using List.reverseRecOn with
    | nil => exact ⟨_, rfl, nil⟩
    | append_singleton earlier request ih =>
      obtain ⟨run, rfl, hrun⟩ := ih
      exact ⟨_, rfl, next run request hrun⟩
  obtain ⟨run', hrequests, hrun'⟩ := hall run.requests
  rwa [← eq_of_requests_eq hrequests]

end Run

end NativeBridge.Linker
