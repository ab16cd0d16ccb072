import NativeBridge.Proofs.CodePage
import NativeBridge.Proofs.Linker.Bindings

/-! # Stubs are kept

If no two libraries are loaded under the same handle, a look-up on the handle of an emulated
library makes a stub on the pages of this library and no other. The stubs that a library was given
lie side by side, and what a stub was made of stays where it was placed.
-/

namespace NativeBridge

variable {W Q : Type}

open Arm64

def Answer.placeOn? (i : LibraryIndex) : Answer → Option Place
  | .stub j place => if j = i then some place else none
  | _ => none

def Call.loaded? : Call Q → Option UInt64
  | .emulator (.load _ _ (.ok handle)) => if handle = 0 then none else some handle
  | _ => none

theorem Stub.installed_of_install {pages pages' : Pages} {sig : Signature} {target : Target}
    {place : Place} (h : install pages sig target = .ok (place, pages')) :
    ∃ words, assemble sig target = .ok words ∧
      pages.Installed (bytesOfWords words) place pages' := by
  unfold install at h
  cases hsig : Signature.ofTags sig.args sig.ret with
  | error fault => rw [hsig] at h; cases h
  | ok checked =>
    obtain ⟨-, rfl⟩ := Signature.ofTags_eq_ok_iff.mp hsig
    rw [hsig] at h
    change (assemble sig target >>= _) = _ at h
    cases hwords : assemble sig target with
    | error fault => rw [hwords] at h; cases h
    | ok words =>
      rw [hwords] at h
      change Except.mapError _ (pages.install (bytesOfWords words)) = _ at h
      cases hinstall : pages.install (bytesOfWords words) with
      | error defect => rw [hinstall] at h; cases h
      | ok placed =>
        rw [hinstall] at h
        obtain rfl := Except.ok.inj h
        exact ⟨words, rfl, Pages.installed_of_install hinstall⟩

namespace Linker

variable [Journal W] {host : Host W Q} {w : W} {l : Linker}

theorem Loading.mem_loaded {name : String} {flags : Int32} {handle : UInt64} {calls : List (Call Q)}
    (h : Loading name flags (.ok ⟨handle, .emulated⟩) calls) :
    handle ≠ 0 ∧ handle ∈ calls.filterMap Call.loaded? := by
  cases h with
  | loaded saved hnull => exact ⟨hnull, by simp [Call.loaded?, hnull]⟩

theorem Attempt.mem_loaded {path name : String} {flags : Int32} {caller handle : UInt64}
    {policy : Policy} {calls : List (Call Q)}
    (h : Attempt path name flags caller policy (.ok ⟨handle, .emulated⟩) calls) :
    handle ≠ 0 ∧ handle ∈ calls.filterMap Call.loaded? := by
  cases h with
  | emulated h => exact h.mem_loaded
  | noNativeBuild h =>
    obtain ⟨hnull, hmem⟩ := h.mem_loaded
    exact ⟨hnull, hmem⟩
  | native h => cases h

theorem Binds.mem_loaded {i : LibraryIndex} {handle : UInt64} {request : Request}
    {out : Answer × Linker} {calls : List (Call Q)}
    (h : Binds l i ⟨handle, .emulated⟩ request out calls) :
    handle ≠ 0 ∧ handle ∈ calls.filterMap Call.loaded? := by
  cases h with
  | mk _ _ hattempt => exact hattempt.mem_loaded

theorem Binds.index_eq {i j : LibraryIndex} {b b' : Binding} {request : Request}
    {out out' : Answer × Linker} {calls calls' : List (Call Q)}
    (hi : Binds l i b request out calls) (hj : Binds l j b' request out' calls') : i = j := by
  cases hi with
  | mk hi =>
    cases hj with
    | mk hj => exact hi.index_eq hj

/-- A request leaves the pages of a library as they were, or places one stub on them. -/
theorem SlotsChange.pages_cases {request : Request} {out : Answer × Linker} {calls : List (Call Q)}
    (h : SlotsChange host w l request out calls) (i : LibraryIndex) :
    (out.1.placeOn? i = none ∧ (out.2.slot i).pages = (l.slot i).pages) ∨
    ∃ place code, out.1.placeOn? i = some place ∧
      (l.slot i).pages.Installed code place (out.2.slot i).pages := by
  cases h with
  | @kept _ answer l' _ hslots _ hanswer =>
    refine .inl ⟨?_, by rw [slot, hslots]; rfl⟩
    cases answer with
    | nothing => rfl
    | value => rfl
    | stub j place => exact absurd rfl (hanswer j place)
  | binding =>
    refine .inl ⟨rfl, ?_⟩
    rw [slot_withBinding]
    split
    · subst i
      rfl
    · rfl
  | @stub _ _ _ lib _ _ _ _ h =>
    cases h with
    | mk _ hinstall =>
      by_cases hi : lib.index = i
      · subst hi
        obtain ⟨words, -, hinstalled⟩ := Stub.installed_of_install hinstall
        refine .inr ⟨_, bytesOfWords words, if_pos rfl, ?_⟩
        rw [slot_withPages, if_pos rfl]
        exact hinstalled
      · refine .inl ⟨if_neg hi, ?_⟩
        rw [slot_withPages, if_neg hi]
        rfl

namespace Run

/-- The places of the stubs that a library was given in a run, in order. -/
def stubsOf (run : Run host l w) (i : LibraryIndex) : List Place :=
  run.answers.filterMap (Answer.placeOn? i)

theorem stubsOf_next (run : Run host l w) (request : Request) (i : LibraryIndex) :
    (run.next request).stubsOf i = run.stubsOf i ++
      ((run.linker.perform host request run.world).1.1.placeOn? i).toList := by
  change (run.answers ++ [_]).filterMap _ = _
  rw [List.filterMap_append, List.filterMap_cons]
  cases (run.linker.perform host request run.world).1.1.placeOn? i with
  | none => rfl
  | some place => rfl

theorem laid (run : Run host l w) {i : LibraryIndex} (hempty : (l.slot i).pages.Laid []) :
    (run.linker.slot i).pages.Laid (run.stubsOf i) := by
  induction run using induction with
  | nil => exact hempty
  | next run request ih =>
    rw [stubsOf_next]
    rcases (run.performed_next request).slotsChange.pages_cases i with ⟨hplace, hpages⟩ |
      ⟨place, code, hplace, hinstalled⟩
    · rw [hplace]
      change ((run.linker.perform host request run.world).1.2.slot i).pages.Laid _
      rw [hpages, Option.toList_none, List.append_nil]
      exact ih
    · rw [hplace]
      exact ih.install hinstalled

theorem filled_prefix (run : Run host l w) (i : LibraryIndex) (k : Nat) :
    (l.slot i).pages.filled k <+: (run.linker.slot i).pages.filled k := by
  induction run using induction with
  | nil => exact List.prefix_refl _
  | next run request ih =>
    refine ih.trans ?_
    rcases (run.performed_next request).slotsChange.pages_cases i with ⟨-, hpages⟩ |
      ⟨place, code, -, hinstalled⟩
    · change _ <+: Pages.filled ((run.linker.perform host request run.world).1.2.slot i).pages k
      rw [hpages]
    · exact hinstalled.filled_prefix k

/-- Whether the handle of every emulated library is one that a load gave, and no two have the same.
-/
structure Loads (run : Run host l w) : Prop where
  loaded : ∀ i handle, (run.linker.slot i).binding? = some ⟨handle, .emulated⟩ →
    handle ≠ 0 ∧ handle ∈ run.calls.filterMap Call.loaded?
  distinct : ∀ i j handle, (run.linker.slot i).binding? = some ⟨handle, .emulated⟩ →
    (run.linker.slot j).binding? = some ⟨handle, .emulated⟩ → i = j

theorem loads (run : Run host l w) (hfree : ∀ i, (l.slot i).binding? = none)
    (hnodup : (run.calls.filterMap Call.loaded?).Nodup) : run.Loads := by
  induction run using induction with
  | nil =>
    have hunbound : ∀ i b, ((nil host l w).linker.slot i).binding? ≠ some b := by
      intro i b hb
      exact absurd ((hfree i).symm.trans hb) nofun
    exact ⟨fun i _ h => absurd h (hunbound i _), fun i _ _ h => absurd h (hunbound i _)⟩
  | next run request ih =>
    change ((run.calls ++ _).filterMap _).Nodup at hnodup
    rw [List.filterMap_append, List.nodup_append] at hnodup
    obtain ⟨hnodup, -, hapart⟩ := hnodup
    obtain ⟨hloaded, hdistinct⟩ := ih hnodup
    constructor
    · intro i handle hb
      change _ ∧ handle ∈ (run.calls ++ _).filterMap _
      rw [List.filterMap_append, List.mem_append]
      rcases run.binds_or_bound request hb with hbinds | hb
      · exact ⟨hbinds.mem_loaded.1, .inr hbinds.mem_loaded.2⟩
      · exact ⟨(hloaded i handle hb).1, .inl (hloaded i handle hb).2⟩
    · -- a handle that this request loads was not given by any load before it
      intro i j handle hi hj
      rcases run.binds_or_bound request hi with hi | hi
      · rcases run.binds_or_bound request hj with hj | hj
        · exact hi.index_eq hj
        · exact absurd rfl (hapart _ (hloaded j handle hj).2 _ hi.mem_loaded.2)
      · rcases run.binds_or_bound request hj with hj | hj
        · exact absurd rfl (hapart _ (hloaded i handle hi).2 _ hj.mem_loaded.2)
        · exact hdistinct i j handle hi hj

end Run

theorem binding?_of_emulated? {handle : UInt64} {lib : Library}
    (h : l.emulated? handle = some lib) :
    Library.known.get lib.index = lib ∧ (l.slot lib.index).binding? = some ⟨handle, .emulated⟩ := by
  rw [emulated?] at h
  have hemulates := List.find?_some h
  obtain ⟨-, hbound⟩ := Slot.emulates_eq_true_iff.mp hemulates
  exact ⟨Library.get_index_of_mem (List.mem_of_find?_eq_some h), hbound⟩

theorem emulated?_eq_some {i : LibraryIndex} {handle : UInt64} (hnull : handle ≠ 0)
    (hbound : (l.slot i).binding? = some ⟨handle, .emulated⟩)
    (hdistinct : ∀ j, (l.slot j).binding? = some ⟨handle, .emulated⟩ → i = j) :
    l.emulated? handle = some (Library.known.get i) := by
  cases hfind : l.emulated? handle with
  | none =>
    rcases emulated?_eq_none_iff.mp hfind with hzero | hnone
    · exact absurd hzero hnull
    · exact absurd hbound (hnone i)
  | some lib =>
    obtain ⟨hlib, hbound'⟩ := binding?_of_emulated? hfind
    rw [hdistinct _ hbound', hlib]

/-- On the handle of an emulated library the platform has no say. -/
theorem Found.unplaced_or_placed {handle : UInt64} {name : RawName} {caller : UInt64}
    {lib : Library} {answer : Answer} {l' : Linker} {calls : List (Call Q)}
    (h : Found host w l handle name caller (answer, l') calls)
    (hlib : l.emulated? handle = some lib) :
    answer = .nothing ∧ l'.slots = l.slots ∧
      Unplaced host w l lib handle (Text.decodeLossy name) calls ∨
    ∃ place, answer = .stub lib.index place ∧
      Placed host w l lib handle (Text.decodeLossy name) (place, l') calls := by
  cases h with
  | passed _ hnone => rw [hlib] at hnone; cases hnone
  | unknown hlib' h =>
    obtain rfl := Option.some.inj (hlib'.symm.trans hlib)
    obtain ⟨hslots, -, hunplaced⟩ := h.unplaced fun place => nofun
    exact .inl ⟨rfl, hslots, hunplaced⟩
  | failed hlib' h =>
    obtain rfl := Option.some.inj (hlib'.symm.trans hlib)
    obtain ⟨hslots, -, hunplaced⟩ := h.unplaced fun place => nofun
    exact .inl ⟨rfl, hslots, hunplaced⟩
  | bridged hlib' h =>
    obtain rfl := Option.some.inj (hlib'.symm.trans hlib)
    exact .inr ⟨_, rfl, h.placed⟩

theorem Placed.installed {lib : Library} {handle : UInt64} {symbol : String} {place : Place}
    {l' : Linker} {calls : List (Call Q)}
    (h : Placed host w l lib handle symbol (place, l') calls) :
    ∃ sig function env dispatcher words before,
      Origin host w l lib handle symbol sig function before ∧
      calls = before ++ [.emulator (.wrappedEnv env), .emulator (.callEntry dispatcher)] ∧
      Stub.assemble sig ⟨env, dispatcher, function⟩ = .ok words ∧
      (l.slot lib.index).pages.Installed (bytesOfWords words) place (l'.slot lib.index).pages ∧
      ∀ j ≠ lib.index, l'.slot j = l.slot j := by
  cases h with
  | @mk sig function env dispatcher before place cache pages horigin hinstall =>
    obtain ⟨words, hwords, hinstalled⟩ := Stub.installed_of_install hinstall
    refine ⟨sig, function, env, dispatcher, words, before, horigin, rfl, hwords, ?_, fun j hj => ?_⟩
    · rw [slot_withPages, if_pos rfl]
      exact hinstalled
    · rw [slot_withPages, if_neg hj.symm]
      rfl

/-- In any run from a fresh linker the stubs that a library was given have no byte in common and are
all that its pages hold. If no handle was given by two loads, the next look-up on the handle of an
emulated library either comes to no stub and is answered with nothing, or it is answered with a
stub behind the others of this library, which holds its bytes in all runs that follow. -/
theorem stubs_kept {config : Config} {pageSize : Nat} {l₀ : Linker}
    (hfresh : create config pageSize = .ok l₀) {w₀ : W} (run : Run host l₀ w₀) (i : LibraryIndex) :
    (run.stubsOf i).Pairwise Place.Disjoint ∧
    (run.linker.slot i).pages.bytesUsed = ((run.stubsOf i).map Place.length).sum ∧
    ((run.calls.filterMap Call.loaded?).Nodup →
      ∀ handle, (run.linker.slot i).binding? = some ⟨handle, .emulated⟩ →
      ∀ (name : RawName) (caller : UInt64),
        let step := Run.single host run.linker run.world (.query (.findSymbol handle name caller))
        (step.answers = [.nothing] ∧ step.linker.slots = run.linker.slots ∧
          Unplaced host run.world run.linker (Library.known.get i) handle (Text.decodeLossy name)
            step.calls) ∨
        ∃ place sig function env dispatcher words calls,
          step.answers = [.stub i place] ∧
          Origin host run.world run.linker (Library.known.get i) handle (Text.decodeLossy name) sig
            function calls ∧
          step.calls = calls ++ [.emulator (.wrappedEnv env), .emulator (.callEntry dispatcher)] ∧
          Stub.assemble sig ⟨env, dispatcher, function⟩ = .ok words ∧
          place.length = (bytesOfWords words).length ∧
          (step.linker.slot i).pages.pages.flatMap Page.bytes =
            (run.linker.slot i).pages.pages.flatMap Page.bytes ++ bytesOfWords words ∧
          (∀ j ≠ i, step.linker.slot j = run.linker.slot j) ∧
          ∀ later : Run host step.linker step.world,
            (later.linker.slot i).pages.read place = bytesOfWords words) := by
  obtain ⟨-, hslots⟩ := create_eq_ok hfresh
  have hlaid : (run.linker.slot i).pages.Laid (run.stubsOf i) := by
    refine run.laid ?_
    rw [hslots]
    exact Pages.laid_empty pageSize
  refine ⟨hlaid.disjoint, hlaid.bytesUsed, fun hnodup handle hbound name caller => ?_⟩
  -- the handle stands for one slot, so that no library before this one answers the look-up
  have hloads := run.loads (fun i => by rw [hslots]) hnodup
  have hemulated : run.linker.emulated? handle = some (Library.known.get i) :=
    emulated?_eq_some (hloads.loaded i handle hbound).1 hbound
      fun j hj => hloads.distinct i j handle hbound hj
  have hperformed := run.performed_next (.query (.findSymbol handle name caller))
  cases hperformed with
  | found hfound =>
    rcases hfound.unplaced_or_placed hemulated with ⟨hanswer, hslots, hunplaced⟩ |
      ⟨place, hanswer, hplaced⟩
    · exact .inl ⟨congrArg (fun answer => [answer]) hanswer, hslots, hunplaced⟩
    · obtain ⟨sig, function, env, dispatcher, words, calls, horigin, hcalls, hwords, hinstalled,
        hothers⟩ := hplaced.installed
      rw [Library.index_get] at hanswer hinstalled hothers
      refine .inr ⟨place, sig, function, env, dispatcher, words, calls,
        congrArg (fun answer => [answer]) hanswer, horigin, hcalls, hwords, hinstalled.length,
        hinstalled.bytes, hothers, fun later => ?_⟩
      rw [Pages.read_of_prefix (later.filled_prefix i place.page) hinstalled.inside.le]
      exact hinstalled.read_eq

/-- Two libraries are loaded, each is given a stub, and then the first is given another one. -/
theorem stubs_kept_bullet : ∃ run : Run CountedWorld.host fresh ⟨10⟩,
    create {} 4096 = .ok fresh ∧ run.calls.filterMap Call.loaded? = [0x500b, 0x500c] ∧
    run.stubsOf 1 = [⟨0, 0, 104⟩] ∧
    let step := Run.single CountedWorld.host run.linker run.world
      (.query (.findSymbol 0x500b (Text.encode "Java_a_B_n") 0))
    step.answers = [.stub 1 ⟨0, 104, 104⟩] ∧ ∃ sig target words,
      Stub.assemble sig target = .ok words ∧ ∀ later : Run CountedWorld.host step.linker step.world,
        (later.linker.slot 1).pages.read ⟨0, 104, 104⟩ = bytesOfWords words := by
  let opening (name : String) : Request := .query (.openLibrary (some (Text.encode name)) 2 0)
  let lookup (handle : UInt64) (symbol : String) : Request :=
    .query (.findSymbol handle (Text.encode symbol) 0)
  let run := ((((Run.nil CountedWorld.host fresh ⟨10⟩).next (opening "libPZBullet64.so")).next
    (opening "libfmodintegration64.so")).next (lookup 0x500b "Java_a_B_m")).next
    (lookup 0x500c "getAudioDevices")
  have hfresh : create {} 4096 = .ok fresh := rfl
  have hloaded : run.calls.filterMap Call.loaded? = [0x500b, 0x500c] := by
    decide +kernel
  have hbound : (run.linker.slot 1).binding? = some ⟨0x500b, .emulated⟩ := by
    decide +kernel
  have hplaces : run.stubsOf 1 = [⟨0, 0, 104⟩] := by
    decide +kernel
  have hanswers : (Run.single CountedWorld.host run.linker run.world
      (lookup 0x500b "Java_a_B_n")).answers = [.stub 1 ⟨0, 104, 104⟩] := by
    decide +kernel
  have hnodup : (run.calls.filterMap Call.loaded?).Nodup := by
    rw [hloaded]
    decide
  refine ⟨run, hfresh, hloaded, hplaces, hanswers, ?_⟩
  rcases (stubs_kept hfresh run 1).2.2 hnodup 0x500b hbound (Text.encode "Java_a_B_n") 0 with
    ⟨hnothing, -⟩ | ⟨place, sig, function, env, dispatcher, words, calls, hplace, -, -, hwords, -,
      -, -, hread⟩
  · exact absurd (hnothing.symm.trans hanswers) (by decide)
  · obtain rfl : place = ⟨0, 104, 104⟩ := by simpa using hplace.symm.trans hanswers
    exact ⟨sig, _, words, hwords, hread⟩

end Linker

end NativeBridge
