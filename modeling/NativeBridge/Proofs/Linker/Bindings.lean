import NativeBridge.Proofs.Linker.Initializers
import NativeBridge.Proofs.Linker.Run
import NativeBridge.Proofs.Resolution.Steady

/-! # Bindings are written once

The slot of a library is bound by the first open that succeeds and never again. Until then each
open is a new attempt, and from then on none is.
-/

namespace NativeBridge

variable {W Q : Type}

/-- Whether a filename selects the library at a place in the table, which is the first whose name
occurs in the filename. -/
structure Selects (raw : RawName) (i : LibraryIndex) : Prop where
  occurs : Text.contains (Text.decodeLossy raw) (Library.known.get i).name = true
  first : ∀ j < i, Text.contains (Text.decodeLossy raw) (Library.known.get j).name = false

theorem Library.index_get (i : LibraryIndex) : (known.get i).index = i :=
  index_known i

theorem Library.get_index_of_mem {lib : Library} (h : lib ∈ known.toList) :
    known.get lib.index = lib :=
  known_index_of_mem h

theorem Library.get_mem_known (i : LibraryIndex) : known.get i ∈ known.toList :=
  Vector.mem_toList_iff.mpr (Vector.getElem_mem i.isLt)

theorem Library.eq_known_index {filename : String} {lib : Library}
    (h : forFilename? filename = some lib) : lib = known.get lib.index :=
  (get_index_of_mem (mem_of_forFilename? h)).symm

theorem selects_iff {raw : RawName} {i : LibraryIndex} :
    Selects raw i ↔ Library.forFilename? (Text.decodeLossy raw) = some (Library.known.get i) := by
  rw [Library.forFilename?, List.find?_eq_some_iff_getElem]
  constructor
  · rintro ⟨hoccurs, hfirst⟩
    have hlength : i.val < Library.known.toList.length := i.isLt
    refine ⟨hoccurs, i, hlength, Vector.getElem_toList hlength, fun j hj => ?_⟩
    have hbefore := hfirst ⟨j, Nat.lt_trans hj i.isLt⟩ hj
    rwa [Bool.not_eq_true', Vector.getElem_toList]
  · rintro ⟨hoccurs, k, hk, hlib, hfirst⟩
    have hindex : (⟨k, hk⟩ : LibraryIndex) = i := by
      rw [← Library.index_get i, ← hlib]
      exact (Library.index_get ⟨k, hk⟩).symm
    refine ⟨hoccurs, fun j hj => ?_⟩
    have hbefore := hfirst j (by rwa [← hindex] at hj)
    rwa [Bool.not_eq_true', Vector.getElem_toList] at hbefore

theorem Selects.index_eq {raw : RawName} {i j : LibraryIndex} (hi : Selects raw i)
    (hj : Selects raw j) : i = j := by
  rw [selects_iff] at hi hj
  rw [← Library.index_get i, ← Library.index_get j, Option.some.inj (hi.symm.trans hj)]

namespace Linker

/-- No library answers on handle zero, nor on one that none was loaded under. -/
theorem emulated?_eq_none_iff {l : Linker} {handle : UInt64} : l.emulated? handle = none ↔
    handle = 0 ∨ ∀ i, (l.slot i).binding? ≠ some ⟨handle, .emulated⟩ := by
  rw [emulated?, List.find?_eq_none]
  simp only [Slot.emulates_eq_true_iff, not_and]
  constructor
  · intro h
    refine or_iff_not_imp_left.mpr fun hne i => ?_
    have hslot := h _ (Library.get_mem_known i) hne
    rwa [Library.index_get] at hslot
  · rintro (rfl | h) lib - hne
    · exact absurd rfl hne
    · exact h lib.index

variable [Journal W] {host : Host W Q} {w : W} {l : Linker}

theorem slot_withBinding (l : Linker) (i j : LibraryIndex) (b : Binding) :
    (l.withBinding i b).slot j = if i = j then { l.slot i with binding? := some b } else l.slot j :=
  l.slot_withSlot i j _

theorem slot_withPages (l : Linker) (i j : LibraryIndex) (pages : Pages) :
    (l.withPages i pages).slot j = if i = j then { l.slot i with pages } else l.slot j :=
  l.slot_withSlot i j _

/-- An open that binds the library at a place in the table. -/
inductive Binds (l : Linker) (i : LibraryIndex) (b : Binding) :
    Request → Answer × Linker → List (Call Q) → Prop
  | mk {raw : RawName} {flags : Int32} {caller : UInt64} {calls : List (Call Q)} :
    Selects raw i → (l.slot i).binding? = none →
    Attempt (nativePath l.config (Text.decodeLossy raw)) (Text.decodeLossy raw) flags caller
      (Library.known.get i).policy (.ok b) calls →
    Binds l i b (.query (.openLibrary (some raw) flags caller))
      (.value b.handle, l.withBinding i b) calls

theorem Binds.binding?_eq {i : LibraryIndex} {b : Binding} {request : Request}
    {out : Answer × Linker} {calls : List (Call Q)} (h : Binds l i b request out calls) :
    (out.2.slot i).binding? = some b := by
  cases h with
  | mk => rw [slot_withBinding, if_pos rfl]

/-- A request binds the library at a place in the table or leaves its binding as it was. -/
theorem SlotsChange.binds_or_eq {request : Request} {out : Answer × Linker} {calls : List (Call Q)}
    (h : SlotsChange host w l request out calls) (i : LibraryIndex) :
    (∃ b, Binds l i b request out calls) ∨ (out.2.slot i).binding? = (l.slot i).binding? := by
  cases h with
  | kept hslots => exact .inr (by rw [slot, hslots]; rfl)
  | @binding raw flags caller lib b calls hlib hfree hattempt =>
    by_cases hi : lib.index = i
    · subst hi
      have hknown := Library.eq_known_index hlib
      refine .inl ⟨b, .mk ?_ hfree ?_⟩
      · rwa [selects_iff, ← hknown]
      · rwa [← hknown]
    · refine .inr ?_
      rw [slot_withBinding, if_neg hi]
  | stub _ h =>
    cases h with
    | mk =>
      refine .inr ?_
      rw [slot_withPages]
      split
      · subst i
        rfl
      · rfl

theorem SlotsChange.config_eq {request : Request} {out : Answer × Linker} {calls : List (Call Q)}
    (h : SlotsChange host w l request out calls) : out.2.config = l.config := by
  cases h with
  | kept _ hconfig => exact hconfig
  | binding => rfl
  | stub _ h =>
    cases h
    rfl

theorem Performed.known {raw : RawName} {flags : Int32} {caller : UInt64} {i : LibraryIndex}
    {answer : Answer} {l' : Linker} {calls : List (Call Q)}
    (h : Performed host w l (.query (.openLibrary (some raw) flags caller)) (answer, l') calls)
    (hraw : Selects raw i) :
    ∃ handle?, answer = .ofValue? handle? ∧
      KnownOpened l (Library.known.get i) (Text.decodeLossy raw) flags caller (handle?, l')
        calls := by
  rw [selects_iff] at hraw
  cases h with
  | opened h =>
    cases h with
    | known hlib h =>
      obtain rfl := Option.some.inj (hlib.symm.trans hraw)
      exact ⟨_, rfl, h⟩
    | redirected hlib => rw [hraw] at hlib; cases hlib
    | passed _ hlib => rw [hraw] at hlib; cases hlib

/-- What a request does to the binding of the library at a place in the table. -/
structure BindingStep (config : Config) (l : Linker) (i : LibraryIndex) (request : Request)
    (out : Answer × Linker) (calls : List (Call Q)) : Prop where
  /-- A binding stays. -/
  kept : ∀ b, (l.slot i).binding? = some b → (out.2.slot i).binding? = some b
  /-- Only an open whose filename selects the library binds it, and leaves all other slots. -/
  bound : (out.2.slot i).binding? ≠ (l.slot i).binding? →
    ∃ raw flags caller, request = .query (.openLibrary (some raw) flags caller) ∧ Selects raw i ∧
      ∀ j ≠ i, out.2.slot j = l.slot j
  /-- An open of a bound library is answered with its handle, and nobody is asked. -/
  repeated : ∀ raw flags caller b, request = .query (.openLibrary (some raw) flags caller) →
    Selects raw i → (l.slot i).binding? = some b → out = (.value b.handle, l) ∧ calls = []
  /-- An open of a library that is not bound is an attempt, and one that fails changes nothing. -/
  attempted : ∀ raw flags caller, request = .query (.openLibrary (some raw) flags caller) →
    Selects raw i → (l.slot i).binding? = none →
    ∃ result, Attempt (nativePath config (Text.decodeLossy raw)) (Text.decodeLossy raw) flags caller
        (Library.known.get i).policy result calls ∧
      (∀ b, result = .ok b → out = (.value b.handle, l.withBinding i b)) ∧
      (∀ defect, result = .error defect → out = (.nothing, l)) ∧
      ∀ path, .platform (.hasFile path true) ∈ calls → ∀ c, .emulator c ∉ calls

theorem Performed.bindingStep {request : Request} {out : Answer × Linker} {calls : List (Call Q)}
    (h : Performed host w l request out calls) (i : LibraryIndex) :
    BindingStep l.config l i request out calls where
  kept b hb := by
    rcases h.slotsChange.binds_or_eq i with ⟨b', hbinds⟩ | heq
    · cases hbinds with
      | mk _ hfree => rw [hfree] at hb; cases hb
    · rw [heq, hb]
  bound hne := by
    rcases h.slotsChange.binds_or_eq i with ⟨b, hbinds⟩ | heq
    · cases hbinds with
      | mk hraw =>
        refine ⟨_, _, _, rfl, hraw, fun j hj => ?_⟩
        rw [slot_withBinding, if_neg hj.symm]
    · exact absurd heq hne
  repeated raw flags caller b hrequest hraw hb := by
    subst hrequest
    obtain ⟨answer, l'⟩ := out
    obtain ⟨handle?, rfl, hopened⟩ := h.known hraw
    rw [← Library.index_get i] at hb
    cases hopened with
    | repeated hb' =>
      obtain rfl := Option.some.inj (hb'.symm.trans hb)
      exact ⟨rfl, rfl⟩
    | bound hfree => rw [hfree] at hb; cases hb
    | failed hfree => rw [hfree] at hb; cases hb
  attempted raw flags caller hrequest hraw hfree := by
    subst hrequest
    obtain ⟨answer, l'⟩ := out
    obtain ⟨handle?, rfl, hopened⟩ := h.known hraw
    rw [← Library.index_get i] at hfree
    cases hopened with
    | repeated hb => rw [hfree] at hb; cases hb
    | bound _ hattempt =>
      refine ⟨_, hattempt, ?_, nofun, fun _ => hattempt.no_emulator⟩
      intro b hb
      obtain rfl := Except.ok.inj hb
      rw [Library.index_get]
      rfl
    | failed _ hattempt =>
      exact ⟨_, hattempt, nofun, fun _ _ => rfl, fun _ => hattempt.no_emulator⟩

namespace Run

theorem config_eq (run : Run host l w) : run.linker.config = l.config := by
  induction run using induction with
  | nil => rfl
  | next run request ih => exact (run.performed_next request).slotsChange.config_eq.trans ih

/-- Runs go on from one another without losing a binding. -/
theorem binding?_kept (run : Run host l w) {i : LibraryIndex} {b : Binding}
    (hb : (l.slot i).binding? = some b) : (run.linker.slot i).binding? = some b := by
  induction run using induction with
  | nil => exact hb
  | next run request ih => exact ((run.performed_next request).bindingStep i).kept b ih

/-- The last request of a run made a binding, or it found it there. -/
theorem binds_or_bound (run : Run host l w) (request : Request) {i : LibraryIndex} {b : Binding}
    (hb : ((run.next request).linker.slot i).binding? = some b) :
    Binds run.linker i b request (run.linker.perform host request run.world).1
      (single host run.linker run.world request).calls ∨
    (run.linker.slot i).binding? = some b := by
  rcases (run.performed_next request).slotsChange.binds_or_eq i with ⟨b', hbinds⟩ | heq
  · obtain rfl := Option.some.inj (hbinds.binding?_eq.symm.trans hb)
    exact .inl hbinds
  · exact .inr (heq.symm.trans hb)

/-- A binding that was not there before a run comes from one of its opens. -/
theorem exists_binds (run : Run host l w) {i : LibraryIndex} {b : Binding}
    (hfree : (l.slot i).binding? = none) (hb : (run.linker.slot i).binding? = some b) :
    ∃ (before : Run host l w) (request : Request) (later : List Request),
      run.requests = before.requests ++ request :: later ∧
      Binds before.linker i b request (before.linker.perform host request before.world).1
        (single host before.linker before.world request).calls := by
  induction run using induction with
  | nil =>
    rw [show ((nil host l w).linker.slot i).binding? = none from hfree] at hb
    cases hb
  | next run request ih =>
    rcases run.binds_or_bound request hb with hbinds | hb
    · exact ⟨run, request, [], rfl, hbinds⟩
    · obtain ⟨before, request', later, hrequests, hbinds⟩ := ih hb
      refine ⟨before, request', later ++ [request], ?_, hbinds⟩
      change run.requests ++ [request] = _
      rw [hrequests, List.append_assoc, List.cons_append]

end Run

/-- After any run from a fresh linker, the next request does with a binding what `BindingStep`
says, a binding is there after all runs that follow, and a library that is bound to a build for
the host's processor prefers one, and got it from an open that found it and loaded nothing. -/
theorem binding_written_once {config : Config} {pageSize : Nat} {l₀ : Linker}
    (hfresh : create config pageSize = .ok l₀) {w₀ : W} (run : Run host l₀ w₀) (i : LibraryIndex) :
    (∀ request, Traced run.world (run.linker.perform host.recorded request)
      (run.linker.perform host request) (BindingStep config run.linker i request)) ∧
    (∀ b, (run.linker.slot i).binding? = some b →
      ∀ later : Run host run.linker run.world, (later.linker.slot i).binding? = some b) ∧
    (∀ handle, (run.linker.slot i).binding? = some ⟨handle, .native⟩ →
      (Library.known.get i).policy = .preferNative ∧
      ∃ (before : Run host l₀ w₀) (raw : RawName) (flags : Int32) (caller : UInt64)
        (later : List Request),
        let opening := Request.query (.openLibrary (some raw) flags caller)
        let path := nativePath config (Text.decodeLossy raw)
        run.requests = before.requests ++ opening :: later ∧ Selects raw i ∧
        (before.linker.slot i).binding? = none ∧
        (Run.single host before.linker before.world opening).calls =
          [.platform (.hasFile path true),
            .platform (.openLibrary (some (Text.encode path)) flags caller (some handle))]) := by
  obtain ⟨hconfig, hslots⟩ := create_eq_ok hfresh
  refine ⟨fun request => ?_, fun b hb later => later.binding?_kept hb, fun handle hb => ?_⟩
  · rw [← hconfig, ← run.config_eq]
    exact (perform_traced request).mono fun calls h => h.bindingStep i
  · have hfree : (l₀.slot i).binding? = none := by rw [hslots]
    obtain ⟨before, request, later, hrequests, hbinds⟩ := run.exists_binds hfree hb
    generalize (before.linker.perform host request before.world).1 = out at hbinds
    generalize hcalls : (Run.single host before.linker before.world request).calls = calls at hbinds
    cases hbinds with
    | mk hraw hunbound hattempt =>
      obtain ⟨hpolicy, rfl⟩ := hattempt.native_eq
      rw [before.config_eq, hconfig] at hcalls
      exact ⟨hpolicy, before, _, _, _, later, hrequests, hraw, hunbound, hcalls⟩

end Linker

namespace CountedWorld

/-- A host that finds a build for its own processor once, and at one time does not load. -/
def host : Host CountedWorld Unit where
  platform := {
    openLibrary := fun _ _ _ w => (some (0x7000 + w.count), ⟨w.count + 1⟩)
    findSymbol := fun _ _ _ => pure none
    openExtended := fun _ _ _ _ => pure none
    exportedNamespace := fun _ => pure none
    hasFile := fun _ w => (w.count == 3, ⟨w.count + 1⟩) }
  emulator := {
    load := fun _ _ w =>
      (if w.count = 2 then .error "busy" else .ok (0x5000 + w.count), ⟨w.count + 1⟩)
    findSymbol := fun _ _ w => (some (0x9000 + w.count), ⟨w.count + 1⟩)
    wrappedEnv := pure 0x1000
    callEntry := pure 0x2000
    suspendQueue := pure ()
    replayQueue := pure ()
    restoreQueue := fun _ => pure () }
  runtime := runtime
  audioDevices := 0x3000

end CountedWorld

namespace Linker

/-- The first open fails, the second binds and the third is answered from the slot. -/
theorem binding_written_once_retried : ∃ run : Run CountedWorld.host fresh ⟨1⟩,
    create {} 4096 = .ok fresh ∧ run.answers = [.nothing, .value 0x7004, .value 0x7004] ∧
    (Library.known.get 1).policy = .preferNative ∧
    ∀ later : Run CountedWorld.host run.linker run.world,
      (later.linker.slot 1).binding? = some ⟨0x7004, .native⟩ := by
  let opening (name : String) (flags : Int32) : Request :=
    .query (.openLibrary (some (Text.encode name)) flags 0)
  let run := (((Run.nil CountedWorld.host fresh ⟨1⟩).next (opening "libPZBullet64.so" 2)).next
    (opening "libPZBullet64.so" 2)).next (opening "/tmp/PZBullet64.old" 1)
  have hbound : (run.linker.slot 1).binding? = some ⟨0x7004, .native⟩ := by
    decide +kernel
  have hfresh : create {} 4096 = .ok fresh := rfl
  obtain ⟨-, hkept, hnative⟩ := binding_written_once hfresh run 1
  refine ⟨run, hfresh, ?_, (hnative _ hbound).1, hkept _ hbound⟩
  decide +kernel

end Linker

end NativeBridge
