import NativeBridge.Proofs.Emulator.Scopes
import NativeBridge.Proofs.Linker.Bindings
import NativeBridge.Proofs.Linker.Bridging

/-! # Scopes of a linker

When a linker puts the queue of initializers aside. It does so once for each library that it loads
into the emulator, right after the load, and hands the queue back at once. No other request
touches the queue.
-/

namespace NativeBridge

variable {W Q : Type}

def Call.isScoping : Call Q → Bool
  | .emulator (.suspendQueue _) | .emulator .replayQueue | .emulator (.restoreQueue _) => true
  | _ => false

def scopeGroup (saved : Q) : List (Call Q) :=
  [.emulator (.suspendQueue saved), .emulator .replayQueue, .emulator (.restoreQueue saved)]

section Calls

variable {calls : List (Call Q)}

theorem Bridging.not_scoping (h : Bridging calls) : ∀ c ∈ calls, c.isScoping = false := by
  intro c hc
  cases h c hc with
  | runtime => rfl
  | findSymbol => rfl
  | wrappedEnv => rfl
  | callEntry => rfl

theorem OfPlatform.not_scoping (h : OfPlatform calls) : ∀ c ∈ calls, c.isScoping = false := by
  intro c hc
  obtain ⟨p, rfl⟩ := h c hc
  rfl

theorem filter_isScoping_eq_nil (h : ∀ c ∈ calls, c.isScoping = false) :
    calls.filter Call.isScoping = [] :=
  List.filter_eq_nil_iff.mpr fun c hc => by simp [h c hc]

end Calls

namespace Linker

section Attempts

variable {path name : String} {flags : Int32} {caller : UInt64} {policy : Policy}
  {out : Except LoadDefect Binding} {calls : List (Call Q)}

/-- What is asked about the queue in an attempt at opening a library, by what comes of it. -/
inductive AttemptScopes (name : String) (flags : Int32) :
    Except LoadDefect Binding → List (Call Q) → Prop
  | loaded {handle : UInt64} {earlier : List (Call Q)} (saved : Q) :
    OfPlatform earlier →
    AttemptScopes name flags (.ok ⟨handle, .emulated⟩)
      (earlier ++ .emulator (.load name (.ofOpenFlags flags) (.ok handle)) :: scopeGroup saved)
  | other {out : Except LoadDefect Binding} {calls : List (Call Q)} :
    (∀ handle, out ≠ .ok ⟨handle, .emulated⟩) → (∀ c ∈ calls, c.isScoping = false) →
    AttemptScopes name flags out calls

theorem AttemptScopes.cons {p : PlatformCall} (h : AttemptScopes name flags out calls) :
    AttemptScopes name flags out (.platform p :: calls) := by
  cases h with
  | loaded saved hearlier => exact .loaded saved hearlier.cons
  | other hout hcalls => exact .other hout (List.forall_mem_cons.mpr ⟨rfl, hcalls⟩)

theorem Loading.scopes (h : Loading name flags out calls) : AttemptScopes name flags out calls := by
  cases h with
  | refused reason => exact .other nofun (List.forall_mem_singleton.mpr rfl)
  | nullHandle => exact .other nofun (List.forall_mem_singleton.mpr rfl)
  | loaded saved => exact .loaded saved .nil

theorem Opening.scopes (h : Opening path flags caller out calls) :
    AttemptScopes name flags out calls := by
  cases h with
  | unnameable => exact .other nofun fun _ h => absurd h List.not_mem_nil
  | unopened => exact .other nofun (List.forall_mem_singleton.mpr rfl)
  | opened => exact .other nofun (List.forall_mem_singleton.mpr rfl)

theorem Attempt.scopes (h : Attempt path name flags caller policy out calls) :
    AttemptScopes name flags out calls := by
  cases h with
  | emulated h => exact h.scopes
  | native h => exact h.scopes.cons
  | noNativeBuild h => exact h.scopes.cons

end Attempts

/-- An open that is the first to load the library at a place in the table into the emulator. -/
inductive FirstEmulated (l : Linker) (i : LibraryIndex) (handle : UInt64) :
    Request → Answer × Linker → Prop
  | mk {raw : RawName} {flags : Int32} {caller : UInt64} {l' : Linker} :
    Selects raw i → (l.slot i).binding? = none →
    (l'.slot i).binding? = some ⟨handle, .emulated⟩ →
    FirstEmulated l i handle (.query (.openLibrary (some raw) flags caller)) (.value handle, l')

theorem FirstEmulated.of_open {l : Linker} {i : LibraryIndex} {handle : UInt64} {raw : RawName}
    {flags : Int32} {caller : UInt64} {out : Answer × Linker}
    (h : FirstEmulated l i handle (.query (.openLibrary (some raw) flags caller)) out) :
    Selects raw i ∧ (l.slot i).binding? = none ∧
      (out.2.slot i).binding? = some ⟨handle, .emulated⟩ := by
  cases h with
  | mk hraw hfree hbound => exact ⟨hraw, hfree, hbound⟩

/-- What is asked about the queue for a request: a replay in a scope after the load of a library
that was not loaded before, and nothing for all other requests. -/
inductive RequestScopes (l : Linker) :
    Request → Answer × Linker → List (Call Q) → Prop
  | first {raw : RawName} {flags : Int32} {caller : UInt64} {i : LibraryIndex} {handle : UInt64}
      {out : Answer × Linker} {earlier : List (Call Q)} (saved : Q) :
    FirstEmulated l i handle (.query (.openLibrary (some raw) flags caller)) out →
    OfPlatform earlier →
    RequestScopes l (.query (.openLibrary (some raw) flags caller)) out
      (earlier ++ .emulator (.load (Text.decodeLossy raw) (.ofOpenFlags flags) (.ok handle)) ::
        scopeGroup saved)
  | other {request : Request} {out : Answer × Linker} {calls : List (Call Q)} :
    (∀ i handle, ¬ FirstEmulated l i handle request out) → (∀ c ∈ calls, c.isScoping = false) →
    RequestScopes l request out calls

variable {l l' : Linker} {request : Request} {out : Answer × Linker} {calls : List (Call Q)}

theorem KnownOpened.scopes {lib : Library} {raw : RawName} {flags : Int32} {caller : UInt64}
    {answer : Option UInt64} (hlib : Library.forFilename? (Text.decodeLossy raw) = some lib)
    (h : KnownOpened l lib (Text.decodeLossy raw) flags caller (answer, l') calls) :
    RequestScopes l (.query (.openLibrary (some raw) flags caller)) (.ofValue? answer, l')
      calls := by
  have hraw : Selects raw lib.index := by
    rwa [selects_iff, ← Library.eq_known_index hlib]
  have hfirst : ∀ {i handle out}, FirstEmulated l i handle
      (.query (.openLibrary (some raw) flags caller)) out →
      (l.slot lib.index).binding? = none ∧
        (out.2.slot lib.index).binding? = some ⟨handle, .emulated⟩ := by
    intro i handle out h
    obtain ⟨hraw', hfree, hbound⟩ := h.of_open
    obtain rfl := hraw.index_eq hraw'
    exact ⟨hfree, hbound⟩
  cases h with
  | repeated hb =>
    refine .other (fun i handle h => ?_) fun _ h => absurd h List.not_mem_nil
    rw [(hfirst h).1] at hb
    cases hb
  | failed hfree hattempt =>
    cases hattempt.scopes with
    | other _ hcalls =>
      refine .other (fun i handle h => ?_) hcalls
      have hbound := (hfirst h).2
      rw [hfree] at hbound
      cases hbound
  | @bound b _ hfree hattempt =>
    have hslot : ((l.withBinding lib.index b).slot lib.index).binding? = some b := by
      rw [slot_withBinding, if_pos rfl]
    have hscopes := hattempt.scopes
    cases hscopes with
    | loaded saved hearlier => exact .first saved (.mk hraw hfree hslot) hearlier
    | other hout hcalls =>
      refine .other (fun i handle h => hout handle ?_) hcalls
      obtain rfl := Option.some.inj (hslot.symm.trans (hfirst h).2)
      rfl

theorem Performed.scopes [Journal W] {host : Host W Q} {w : W}
    (h : Performed host w l request out calls) : RequestScopes l request out calls := by
  cases h with
  | opened h =>
    cases h with
    | program => exact .other nofun (List.forall_mem_singleton.mpr rfl)
    | known hlib h => exact h.scopes hlib
    | redirected hlib =>
      refine .other (fun i handle h => ?_) fun _ h => absurd h List.not_mem_nil
      rw [selects_iff.mp h.of_open.1] at hlib
      cases hlib
    | passed _ hlib =>
      refine .other (fun i handle h => ?_) (List.forall_mem_singleton.mpr rfl)
      rw [selects_iff.mp h.of_open.1] at hlib
      cases hlib
  | openedExtended _ h => exact .other nofun h.not_scoping
  | openedVendor _ h => exact .other nofun h.not_scoping
  | loaderSet => exact .other nofun fun _ h => absurd h List.not_mem_nil
  | driverSet => exact .other nofun fun _ h => absurd h List.not_mem_nil
  | found h =>
    refine .other nofun ?_
    cases h with
    | passed => exact List.forall_mem_singleton.mpr rfl
    | bridged _ h => exact h.bridging.not_scoping
    | unknown _ h => exact h.bridging.not_scoping
    | failed _ h => exact h.bridging.not_scoping

theorem FirstEmulated.free {i : LibraryIndex} {handle : UInt64}
    (h : FirstEmulated l i handle request out) : (l.slot i).binding? = none := by
  cases h with
  | mk _ hfree => exact hfree

theorem FirstEmulated.bound {i : LibraryIndex} {handle : UInt64}
    (h : FirstEmulated l i handle request out) :
    (out.2.slot i).binding? = some ⟨handle, .emulated⟩ := by
  cases h with
  | mk _ _ hbound => exact hbound

theorem FirstEmulated.eq {i j : LibraryIndex} {handle handle' : UInt64}
    (h : FirstEmulated l i handle request out) (h' : FirstEmulated l j handle' request out) :
    i = j ∧ handle = handle' := by
  cases h with
  | mk hraw _ hbound =>
    obtain ⟨hraw', -, hbound'⟩ := h'.of_open
    obtain rfl := hraw.index_eq hraw'
    cases hbound.symm.trans hbound'
    exact ⟨rfl, rfl⟩

/-- A library is in the emulator after a request if and only if it was there before, unless the
request is the open that loads it. -/
theorem Performed.first_or_iff [Journal W] {host : Host W Q} {w : W}
    (h : Performed host w l request out calls) (i : LibraryIndex) :
    (∃ handle, FirstEmulated l i handle request out) ∨
      ∀ handle, (out.2.slot i).binding? = some ⟨handle, .emulated⟩ ↔
        (l.slot i).binding? = some ⟨handle, .emulated⟩ := by
  rcases h.slotsChange.binds_or_eq i with ⟨⟨handle, kind⟩, hbinds⟩ | heq
  · have hbound := hbinds.binding?_eq
    cases hbinds with
    | mk hraw hfree =>
      cases kind with
      | emulated => exact .inl ⟨handle, .mk hraw hfree hbound⟩
      | native =>
        refine .inr fun handle' => ?_
        rw [hbound, hfree]
        simp
  · refine .inr fun handle => ?_
    rw [heq]

theorem Performed.bound_iff_of_first [Journal W] {host : Host W Q} {w : W}
    (h : Performed host w l request out calls) {i : LibraryIndex} {handle : UInt64}
    (hfirst : FirstEmulated l i handle request out) (j : LibraryIndex) (handle' : UInt64) :
    (out.2.slot j).binding? = some ⟨handle', .emulated⟩ ↔
      (l.slot j).binding? = some ⟨handle', .emulated⟩ ∨ j = i ∧ handle' = handle := by
  constructor
  · intro hbound
    rcases h.first_or_iff j with ⟨handle'', hfirst'⟩ | hiff
    · obtain ⟨rfl, rfl⟩ := hfirst.eq hfirst'
      cases hfirst.bound.symm.trans hbound
      exact .inr ⟨rfl, rfl⟩
    · exact .inl ((hiff handle').mp hbound)
  · rintro (hbound | ⟨rfl, rfl⟩)
    · rcases h.first_or_iff j with ⟨handle'', hfirst'⟩ | hiff
      · rw [hfirst'.free] at hbound
        cases hbound
      · exact (hiff handle').mpr hbound
    · exact hfirst.bound

/-- The load of a library into the emulator, and the queue that was put aside after it. -/
structure FirstLoad (Q : Type) where
  index : LibraryIndex
  handle : UInt64
  saved : Q

/-- The loads that led to a linker: one for each library that is in the emulator, and a replay in a
scope for each of them. -/
structure Loads (l : Linker) (calls : List (Call Q)) (loads : List (FirstLoad Q)) : Prop where
  nodup : (loads.map FirstLoad.index).Nodup
  bound_iff : ∀ i handle, (l.slot i).binding? = some ⟨handle, .emulated⟩ ↔
    ∃ saved, ⟨i, handle, saved⟩ ∈ loads
  calls : calls.filter Call.isScoping = loads.flatMap fun load => scopeGroup load.saved

theorem Loads.notMem {loads : List (FirstLoad Q)} (h : Loads l calls loads) {i : LibraryIndex}
    (hfree : (l.slot i).binding? = none) : i ∉ loads.map FirstLoad.index := by
  intro hi
  obtain ⟨⟨j, handle, saved⟩, hmem, rfl⟩ := List.mem_map.mp hi
  have hbound := (h.bound_iff j handle).mpr ⟨saved, hmem⟩
  rw [hfree] at hbound
  cases hbound

theorem Loads.step [Journal W] {host : Host W Q} {w : W} {earlier : List (Call Q)}
    {loads : List (FirstLoad Q)} (h : Loads l earlier loads)
    (hperformed : Performed host w l request out calls) :
    ∃ more, Loads out.2 (earlier ++ calls) (loads ++ more) := by
  cases hperformed.scopes with
  | @first _ _ _ i handle _ _ saved hfirst hearlier =>
    refine ⟨[⟨i, handle, saved⟩], ?_, fun j handle' => ?_, ?_⟩
    · rw [List.map_append, List.map_singleton, ← List.concat_eq_append]
      exact h.nodup.concat (h.notMem hfirst.free)
    · rw [hperformed.bound_iff_of_first hfirst, h.bound_iff]
      simp only [List.mem_append, List.mem_singleton, FirstLoad.mk.injEq, exists_or]
      refine or_congr Iff.rfl ⟨?_, ?_⟩
      · rintro ⟨rfl, rfl⟩
        exact ⟨saved, rfl, rfl, rfl⟩
      · rintro ⟨_, rfl, rfl, -⟩
        exact ⟨rfl, rfl⟩
    · rw [List.filter_append, h.calls, List.filter_append,
        filter_isScoping_eq_nil hearlier.not_scoping, List.flatMap_append]
      rfl
  | other hno hcalls =>
    refine ⟨[], ?_, fun j handle => ?_, ?_⟩
    · rw [List.append_nil]
      exact h.nodup
    · rw [List.append_nil]
      rcases hperformed.first_or_iff j with ⟨handle', hfirst⟩ | hiff
      · exact absurd hfirst (hno j handle')
      · exact (hiff handle).trans (h.bound_iff j handle)
    · rw [List.append_nil, List.filter_append, h.calls, filter_isScoping_eq_nil hcalls,
        List.append_nil]

/-- After any run from a linker without bindings there is one load for each library that is in the
emulator. -/
theorem Run.exists_loads [Journal W] {host : Host W Q} {w : W}
    (hfree : ∀ i, (l.slot i).binding? = none) (run : Run host l w) :
    ∃ loads, Loads run.linker run.calls loads := by
  induction run using Run.induction with
  | nil =>
    refine ⟨[], List.nodup_nil, fun i handle => ?_, rfl⟩
    change (l.slot i).binding? = _ ↔ _
    rw [hfree]
    simp
  | next run request ih =>
    obtain ⟨loads, hloads⟩ := ih
    obtain ⟨more, hmore⟩ := hloads.step (run.performed_next request)
    exact ⟨loads ++ more, hmore⟩

open Emulator in
/-- Well-nested steps hand back each queue that they put aside, and the queue is after a scope what
it was before. A linker replays in a scope right after each load that first brings a library into
the emulator, and touches the queue at no other time. -/
theorem scopes_balanced [Journal W] (host : Host W Q) :
    (∀ (scopes : Scopes Q) (steps : List (ScopeStep W)), WellNested scopes.length steps → ∀ w,
      Traced w (host.emulator.recorded.takeSteps scopes (steps.map .recorded))
        (host.emulator.takeSteps scopes steps)
        fun left calls => left = scopes ∧ ScopeCalls (Q := Q) steps calls) ∧
    (∀ {I : Type} (v : QueueView W Q I), host.emulator.SwapsQueue v →
      ∀ (scopes : Scopes Q) (body : List (ScopeStep W)), WellNested (scopes.length + 1) body →
      ∀ w, v.waiting (host.emulator.takeSteps scopes (.enter :: (body ++ [.leave])) w).2 =
        v.waiting w) ∧
    ∀ {config : Config} {pageSize : Nat} {l₀ : Linker}, create config pageSize = .ok l₀ →
      ∀ {w₀ : W} (run : Run host l₀ w₀),
        (∀ request, Traced run.world (run.linker.perform host.recorded request)
          (run.linker.perform host request) (RequestScopes run.linker request)) ∧
        ∃ loads, Loads run.linker run.calls loads := by
  refine ⟨fun scopes steps h w => takeSteps_traced h rfl,
    fun v he scopes body h w => waiting_takeSteps_scope he h, ?_⟩
  intro config pageSize l₀ hfresh w₀ run
  constructor
  · exact fun request => (perform_traced request).mono fun _ h => h.scopes
  · obtain ⟨-, hslots⟩ := create_eq_ok hfresh
    exact run.exists_loads fun i => by rw [hslots]

/-- Initializers that are put off in nested scopes, with a replay in each of them. -/
def nestedBody : List (Emulator.ScopeStep QueueWorld) :=
  let putOff (name : String) : Emulator.ScopeStep QueueWorld :=
    .change fun w => { w with waiting := w.waiting ++ [name] }
  [putOff "a", .enter, putOff "b", .replay, putOff "c", .leave, .replay, putOff "d"]

/-- What waited before a scope waits after it, and a second open replays nothing. -/
theorem scopes_balanced_bullet :
    (∃ w, (QueueWorld.host ["bullet"]).emulator.takeSteps []
        (.enter :: (nestedBody ++ [.leave])) ⟨["other"], []⟩ = ([], w) ∧ w.waiting = ["other"]) ∧
    ∃ run : Run (QueueWorld.host ["bullet"]) fresh ⟨["other"], []⟩,
      create {} 4096 = .ok fresh ∧ run.answers = [.value 0x5000, .value 0x5000] ∧
      ∃ loads, Loads run.linker run.calls loads ∧ ∃ saved, ⟨1, 0x5000, saved⟩ ∈ loads := by
  have hnested : Emulator.WellNested 0 (.enter :: (nestedBody ++ [.leave])) := by decide
  have hbody : Emulator.WellNested 1 nestedBody :=
    .change _ (.scope (.change _ (.replay (.change _ .nil))) (.replay (.change _ .nil)))
  obtain ⟨htraced, hwaiting, hruns⟩ := scopes_balanced (QueueWorld.host ["bullet"])
  constructor
  · have hleft := (htraced [] _ hnested ⟨["other"], []⟩).calls.1
    have he := (QueueWorld.keepsQueue_emulator ["bullet"]).swapsQueue
    exact ⟨_, Prod.ext hleft rfl, hwaiting QueueWorld.view he [] nestedBody hbody ⟨["other"], []⟩⟩
  · let opening : Request := .query (.openLibrary (some (Text.encode "libPZBullet64.so")) 2 0)
    let run := ((Run.nil (QueueWorld.host ["bullet"]) fresh ⟨["other"], []⟩).next opening).next
      opening
    have hbound : (run.linker.slot 1).binding? = some ⟨0x5000, .emulated⟩ := by
      decide +kernel
    have hfresh : create {} 4096 = .ok fresh := rfl
    obtain ⟨-, loads, hloads⟩ := hruns hfresh run
    refine ⟨run, hfresh, ?_, loads, hloads, (hloads.bound_iff 1 0x5000).mp hbound⟩
    decide +kernel

end Linker

end NativeBridge
