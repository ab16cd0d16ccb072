import NativeBridge.Proofs.Gateway.Answers
import NativeBridge.Proofs.Gateway.Step

/-! # The history of a gateway

What a gateway holds is told by the requests that it has met: the first entry points that were
handed over complete, the handles that were told last, and the first linker that was armed, as the
requests after that left it.
-/

namespace NativeBridge

variable {W Q : Type} [Journal W]

/-- What requests in sequence may leave of a linker, whatever happens to the world in between. -/
inductive Linker.Evolves (host : Host W Q) : Linker → List Linker.Request → Linker → Prop
  | nil {l : Linker} : Evolves host l [] l
  | cons {l l' : Linker} {request : Linker.Request} {requests : List Linker.Request} (w : W) :
    Evolves host (l.perform host request w).1.2 requests l' →
    Evolves host l (request :: requests) l'

namespace Gateway

def after (s : Surroundings W) (g : Gateway W Q) (requests : List (Request W Q)) (w : W) :
    Gateway W Q × W :=
  ((g.performAll s requests w).1.2, (g.performAll s requests w).2)

variable {s : Surroundings W} {g : Gateway W Q} {w : W} {requests : List (Request W Q)}

theorem after_cons (s : Surroundings W) (g : Gateway W Q) (request : Request W Q)
    (others : List (Request W Q)) (w : W) :
    g.after s (request :: others) w =
      (g.take s request.step w).1.2.after s others (g.take s request.step w).2 := by
  rw [← perform_eq_take]
  rfl

theorem after_append (s : Surroundings W) (g : Gateway W Q) (earlier later : List (Request W Q))
    (w : W) :
    g.after s (earlier ++ later) w =
      (g.after s earlier w).1.after s later (g.after s earlier w).2 := by
  induction earlier generalizing g w with
  | nil => rfl
  | cons request earlier ih => rw [List.cons_append, after_cons, after_cons, ih]

theorem loader?_after (s : Surroundings W) (g : Gateway W Q) (requests : List (Request W Q))
    (w : W) :
    (g.after s requests w).1.loader?.map Installed.loader =
      (g.loader?.map Installed.loader).or (requests.findSome? (·.step.loader?)) := by
  induction requests generalizing g w with
  | nil => exact Option.or_none.symm
  | cons request others ih =>
    rw [after_cons, ih, loader?_take, Option.or_assoc, List.findSome?_cons]
    cases request.step.loader? with
    | none => rfl
    | some loader => rfl

theorem vulkan_after (s : Surroundings W) (g : Gateway W Q) (requests : List (Request W Q))
    (w : W) (part : Vulkan) :
    (g.after s requests w).1.vulkan part =
      (requests.reverse.findSome? (·.step.told? part)).getD (g.vulkan part) := by
  induction requests generalizing g w with
  | nil => rfl
  | cons request others ih =>
    rw [after_cons, ih, vulkan_take, List.reverse_cons, List.findSome?_append,
      List.findSome?_singleton, Option.getD_or]

theorem armed?_after_eq_none (hg : g.armed? = none)
    (hnone : ∀ request ∈ requests, request.step.linker? = none) :
    (g.after s requests w).1.armed? = none := by
  induction requests generalizing g w with
  | nil => exact hg
  | cons request others ih =>
    obtain ⟨hrequest, hothers⟩ := List.forall_mem_cons.mp hnone
    rw [after_cons]
    apply ih _ hothers
    rw [armed?_take_of_none hg, hrequest, Option.map_none]

/-- The linker stays the same, and its handles keep up with those of the gateway. -/
theorem exists_evolves {a : Armed W Q} (hg : g.armed? = some a) (requests : List (Request W Q)) :
    ∃ l, (g.after s requests w).1.armed? = some ⟨a.host, l⟩ ∧
      Linker.Evolves a.host a.linker (requests.filterMap (·.step.handedOn?)) l ∧
      ∀ part, a.linker.vulkan part = g.vulkan part →
        l.vulkan part = (g.after s requests w).1.vulkan part := by
  induction requests generalizing g a w with
  | nil => exact ⟨a.linker, hg, .nil, fun _ => id⟩
  | cons request others ih =>
    rw [after_cons, List.filterMap_cons]
    obtain ⟨l, harmed, hevolves, hvulkan⟩ := ih (armed?_take_of_some hg request.step)
    refine ⟨l, harmed, ?_, fun part hpart => hvulkan part ?_⟩
    · -- the first request is one of the linker's own, or it does not reach the linker
      unfold Step.linkerAfter at hevolves
      cases hhanded : request.step.handedOn? with
      | none =>
        rw [hhanded] at hevolves
        exact hevolves
      | some handed =>
        rw [hhanded] at hevolves
        exact .cons w hevolves
    · rw [Step.vulkan_linkerAfter, vulkan_take, hpart]

omit [Journal W] in
/-- Requests arm no linker, or there is a first among them that does. -/
theorem arming_cases (requests : List (Request W Q)) :
    (∀ request ∈ requests, request.step.linker? = none) ∨
    ∃ before request later host l, requests = before ++ request :: later ∧
      (∀ r ∈ before, r.step.linker? = none) ∧ request.step.linker? = some (host, l) := by
  cases hfirst : requests.findSome? (·.step.linker?) with
  | none => exact .inl (List.findSome?_eq_none_iff.mp hfirst)
  | some armed =>
    obtain ⟨before, request, later, hrequests, hrequest, hbefore⟩ :=
      List.findSome?_eq_some_iff.mp hfirst
    exact .inr ⟨before, request, later, armed.1, armed.2, hrequests, hbefore, hrequest⟩

/-- The first linker that is armed is there from then on. -/
theorem armed_after {before later : List (Request W Q)} {request : Request W Q} {host : Host W Q}
    {l : Linker} (hbefore : ∀ r ∈ before, r.step.linker? = none)
    (hrequest : request.step.linker? = some (host, l)) :
    ∃ l', (fresh.after s (before ++ request :: later) w).1.armed? = some ⟨host, l'⟩ ∧
      Linker.Evolves host ((fresh.after s before w).1.withHandles l)
        (later.filterMap (·.step.handedOn?)) l' ∧
      ∀ part, l.vulkan part = 0 → l'.vulkan part =
        ((before ++ request :: later).reverse.findSome? (·.step.told? part)).getD 0 := by
  have hnone : (fresh.after s before w).1.armed? = none := armed?_after_eq_none rfl hbefore
  have harming := armed?_take_of_none (s := s) (w := (fresh.after s before w).2) hnone request.step
  rw [hrequest, Option.map_some] at harming
  obtain ⟨l', harmed, hevolves, hvulkan⟩ := exists_evolves harming later
  rw [← after_cons, ← after_append] at harmed
  refine ⟨l', harmed, hevolves, fun part hpart => ?_⟩
  rw [hvulkan part, ← after_cons, ← after_append, vulkan_after]
  · cases part <;> rfl
  · rw [vulkan_take, Step.told?_eq_none hrequest]
    exact vulkan_withHandles hpart

/-- What is installed after requests to a gateway that was fresh, and what becomes of the next
ones. -/
structure InstalledOnce (s : Surroundings W) (w₀ : W) (requests : List (Request W Q))
    (g : Gateway W Q) (w : W) : Prop where
  /-- The entry points are the first that were handed over complete. -/
  loader : g.loader?.map Installed.loader = requests.findSome? (·.step.loader?)
  loader_kept : ∀ i later, g.loader? = some i →
    (g.after s later w).1.loader?.map Installed.loader = some i.loader
  /-- There is a linker as soon as one was to be armed that could be made. -/
  unarmed_iff : g.armed? = none ↔ ∀ request ∈ requests, request.step.linker? = none
  /-- The linker is the first one that was armed, as the requests left it that were handed on to
  it. If it brought no handles of its own, it has those that the gateway was told last. -/
  armed : ∀ a, g.armed? = some a → ∃ before request later l,
    requests = before ++ request :: later ∧ (∀ r ∈ before, r.step.linker? = none) ∧
    request.step.linker? = some (a.host, l) ∧
    Linker.Evolves a.host ((fresh.after s before w₀).1.withHandles l)
      (later.filterMap (·.step.handedOn?)) a.linker ∧
    ∀ part, l.vulkan part = 0 →
      a.linker.vulkan part = (requests.reverse.findSome? (·.step.told? part)).getD 0
  armed_kept : ∀ a later, g.armed? = some a → ∃ l,
    (g.after s later w).1.armed? = some ⟨a.host, l⟩ ∧
    Linker.Evolves a.host a.linker (later.filterMap (·.step.handedOn?)) l
  failed : ∀ request failure, (g.perform s request w).1.1 = .failed failure →
    g.perform s request w = ((.failed failure, g), w)
  answered : ∀ request q, request.step = .ask (some q) → ∃ out, Answered s g w q out ∧
    g.perform s request w = ((.answer out.1.1, out.1.2), out.2)
  /-- Without a name nothing is found, and nobody is asked. -/
  nameless : ∀ request, request.step = .ask none →
    g.perform s request w = ((.answer .nothing, g), w)

/-- In whatever order a process is asked, its first linker and its first entry points stay, and
the handles of the linker are the ones that were told last. -/
theorem installed_once (s : Surroundings W) (w : W) (requests : List (Request W Q)) :
    InstalledOnce s w requests (fresh.after s requests w).1 (fresh.after s requests w).2 where
  loader := loader?_after s fresh requests w
  loader_kept i later hi := by
    rw [loader?_after, hi]
    rfl
  unarmed_iff := by
    constructor
    · intro hnone
      rcases arming_cases requests with hall | ⟨_, _, _, _, _, rfl, hbefore, hrequest⟩
      · exact hall
      · obtain ⟨l, harmed, -⟩ := armed_after hbefore hrequest
        rw [hnone] at harmed
        cases harmed
    · exact armed?_after_eq_none rfl
  armed a ha := by
    rcases arming_cases requests with hall |
      ⟨before, request, later, host, l, rfl, hbefore, hrequest⟩
    · rw [armed?_after_eq_none rfl hall] at ha
      cases ha
    · obtain ⟨l', harmed, hevolves, hvulkan⟩ := armed_after hbefore hrequest
      obtain rfl := Option.some.inj (harmed.symm.trans ha)
      exact ⟨before, request, later, l, rfl, hbefore, hrequest, hevolves, hvulkan⟩
  armed_kept a later ha := by
    obtain ⟨l, harmed, hevolves, -⟩ := exists_evolves ha later
    exact ⟨l, harmed, hevolves⟩
  failed request failure h := by
    rw [perform_eq_take] at h ⊢
    exact take_failed h
  answered request q h := by
    refine ⟨_, answered s _ _ q, ?_⟩
    rw [perform_eq_take, h]
    rfl
  nameless request h := by
    rw [perform_eq_take, h]
    rfl

/-- A handle that was taken back stays taken back, and a second linker comes too late. -/
example (host other : Host W Q) (l : Linker) :
    (fresh.after s [.setVulkanDriver 5, .arm host { l with vulkanLoader := 0, vulkanDriver := 0 },
      .setVulkanLoader 7, .setVulkanDriver 0, .arm other l] w).1.armed?.map
      (fun a => (a.linker.vulkanLoader, a.linker.vulkanDriver)) = some (7, 0) := rfl

end Gateway

end NativeBridge
