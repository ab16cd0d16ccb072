import NativeBridge.Proofs.Cache
import NativeBridge.Proofs.Linker.Bridging
import NativeBridge.Proofs.Linker.Stubs

/-! # Look-ups that fail

A look-up that is not answered with a stub leaves nothing half made. The descriptor that its symbol
was resolved to stays in the cache, and everything else is as it was before.
-/

namespace NativeBridge

variable {W Q : Type}

namespace Resolution

variable {calls : List (Call Q)}

theorem Resolved.cache_eq_insert {cache : Cache} (hnodup : cache.symbols.Nodup) {symbol : String}
    {out : Except LinkFault String × Cache} (h : Resolved cache symbol out calls) :
    out.2 = out.1.toOption.elim cache (cache.insert symbol) := by
  cases h with
  | cached hget =>
    -- nothing is inserted, and an insert would change nothing
    exact (Cache.insert_of_get? hnodup hget).symm
  | failed => rfl
  | added => rfl

/-- A resolution inserts the descriptor that it finds, also if that was in the cache before. -/
theorem cache_resolve [Journal W] (rt : ManagedRuntime W) (symbol : String) {cache : Cache} (w : W)
    (hnodup : cache.symbols.Nodup) : (resolve rt symbol cache w).1.2 =
      (resolve rt symbol cache w).1.1.toOption.elim cache (cache.insert symbol) :=
  (resolve_traced (Q := Unit) symbol cache).calls.cache_eq_insert hnodup

end Resolution

namespace Linker

open Resolution

def described? [Journal W] (host : Host W Q) (w : W) (l : Linker) (lib : Library) (handle : UInt64)
    (symbol : String) : Option String :=
  if isAudioQuery lib symbol then none
  else match (host.emulator.findSymbol handle symbol w).1 with
    | none => none
    | some _ =>
      let w' := (attachFor host symbol (host.emulator.findSymbol handle symbol w).2).2
      (resolve host.runtime symbol l.cache w').1.1.toOption

variable {host : Host W Q} {w : W} {l l' : Linker} {i : LibraryIndex} {lib : Library}
  {handle : UInt64} {symbol : String} {calls : List (Call Q)}

theorem Made.cache_eq {sig : Signature} {function : UInt64} {made : Except LinkFault Place}
    (h : Made l i sig function (made, l') calls) : l'.cache = l.cache := by
  cases h with
  | placed => rfl
  | refused => rfl

theorem Made.eq_of_error {sig : Signature} {function : UInt64} {fault : LinkFault}
    (h : Made l i sig function (.error fault, l') calls) : l' = l := by
  cases h
  rfl

variable [Journal W]

/-- The platform has no part in bridging. -/
theorem Bridged.offPlatform {out : Except LinkFault (Option Place) × Linker}
    (h : Bridged host w l lib handle symbol out calls) (p : PlatformCall) :
    .platform p ∉ calls :=
  fun hp => nomatch h.bridging _ hp

theorem FunctionBridged.eq_of_error {function : UInt64} {fault : LinkFault}
    (h : FunctionBridged host.runtime w l i symbol function (.error fault, l') calls) :
    l' = { l with cache := l'.cache } := by
  cases h with
  | unresolved => rfl
  | undecoded => rfl
  | decoded _ _ _ h =>
    obtain rfl := h.eq_of_error
    rfl

/-- Without a stub nothing but the cache may have changed. -/
theorem Bridged.eq_of_ne {out : Except LinkFault (Option Place)}
    (h : Bridged host w l lib handle symbol (out, l') calls)
    (hout : ∀ place, out ≠ .ok (some place)) : l' = { l with cache := l'.cache } := by
  cases h with
  | @audio made _ _ _ h =>
    cases made with
    | ok place => exact absurd rfl (hout place)
    | error fault =>
      obtain rfl := h.eq_of_error
      rfl
  | unknown => rfl
  | @function _ made _ _ _ _ _ h =>
    cases made with
    | ok place => exact absurd rfl (hout place)
    | error fault => exact h.eq_of_error

/-- On the handle of an emulated library, nothing is answered only where no stub was made. -/
theorem Found.bridged_of_nothing {name : RawName} {caller : UInt64} {answer : Answer}
    (h : Found host w l handle name caller (answer, l') calls) (hanswer : answer = .nothing)
    (hlib : l.emulated? handle = some lib) : ∃ out, (∀ place, out ≠ .ok (some place)) ∧
      Bridged host w l lib handle (Text.decodeLossy name) (out, l') calls := by
  cases h with
  | passed _ hnone =>
    rw [hlib] at hnone
    cases hnone
  | bridged => cases hanswer
  | unknown hlib' h =>
    obtain rfl := Option.some.inj (hlib'.symm.trans hlib)
    exact ⟨.ok none, fun _ => nofun, h⟩
  | failed hlib' h =>
    obtain rfl := Option.some.inj (hlib'.symm.trans hlib)
    exact ⟨.error _, fun _ => nofun, h⟩

section Cache

variable (host : Host W Q) (l : Linker) (w : W)

omit [Journal W] in
theorem cache_makeStub (i : LibraryIndex) (sig : Signature) (function : UInt64) :
    (makeStub host l i sig function w).1.2.cache = l.cache :=
  (makeStub_traced i sig function).calls.cache_eq

theorem cache_bridgeFunction (i : LibraryIndex) (symbol : String) (function : UInt64) :
    (bridgeFunction host l i symbol function w).1.2.cache =
      (resolve host.runtime symbol l.cache w).1.2 := by
  unfold bridgeFunction
  rw [Action.bind_apply]
  rcases resolve host.runtime symbol l.cache w with ⟨⟨resolved, cache⟩, w'⟩
  cases resolved with
  | error fault => rfl
  | ok descriptor =>
    dsimp only
    cases Descriptor.decode descriptor with
    | error fault => rfl
    | ok sig => exact cache_makeStub host _ w' i sig.native function

theorem cache_bridge (hnodup : l.cache.symbols.Nodup) (lib : Library) (handle : UInt64)
    (symbol : String) : (bridge host l lib handle symbol w).1.2.cache =
      (described? host w l lib handle symbol).elim l.cache (l.cache.insert symbol) := by
  unfold bridge described?
  by_cases haudio : isAudioQuery lib symbol = true
  · rw [if_pos haudio, if_pos haudio]
    exact cache_makeStub host l w lib.index audioDevicesSignature host.audioDevices
  · rw [if_neg haudio, if_neg haudio, Action.bind_apply]
    cases (host.emulator.findSymbol handle symbol w).1 with
    | none => rfl
    | some function =>
      exact (cache_bridgeFunction host l _ lib.index symbol function).trans
        (cache_resolve host.runtime symbol _ hnodup)

theorem cache_findSymbol (hnodup : l.cache.symbols.Nodup) {handle : UInt64} {lib : Library}
    (hlib : l.emulated? handle = some lib) (name : RawName) (caller : UInt64) :
    (findSymbol host l handle name caller w).1.2.cache =
      (described? host w l lib handle (Text.decodeLossy name)).elim l.cache
        (l.cache.insert (Text.decodeLossy name)) := by
  rw [← cache_bridge host l w hnodup lib handle (Text.decodeLossy name)]
  unfold findSymbol
  rw [hlib]
  dsimp only
  rw [Action.bind_apply]
  rcases bridge host l lib handle (Text.decodeLossy name) w with ⟨⟨made, l'⟩, w'⟩
  cases made with
  | error fault => rfl
  | ok place? => cases place? <;> rfl

end Cache

theorem KnownOpened.cache_eq {name : String} {flags : Int32} {caller : UInt64}
    {answer : Option UInt64} (h : KnownOpened l lib name flags caller (answer, l') calls) :
    l'.cache = l.cache := by
  cases h with
  | repeated => rfl
  | bound => rfl
  | failed => rfl

theorem Opened.cache_eq {name? : Option RawName} {flags : Int32} {caller : UInt64}
    {answer : Option UInt64} (h : Opened l flags caller name? (answer, l') calls) :
    l'.cache = l.cache := by
  cases h with
  | program => rfl
  | known _ h => exact h.cache_eq
  | redirected => rfl
  | passed => rfl

theorem cache_openLibrary (host : Host W Q) (l : Linker) (name? : Option RawName) (flags : Int32)
    (caller : UInt64) (w : W) : (openLibrary host l name? flags caller w).1.2.cache = l.cache :=
  (openLibrary_traced name?).calls.cache_eq

/-- Nothing but a resolution changes the cache, and that by an insert. -/
theorem nodup_symbols_perform (host : Host W Q) (l : Linker) (w : W)
    (hnodup : l.cache.symbols.Nodup) (request : Request) :
    (l.perform host request w).1.2.cache.symbols.Nodup := by
  cases request with
  | setVulkanLoader => exact hnodup
  | setVulkanDriver => exact hnodup
  | query q =>
    cases q with
    | openLibrary name? flags caller =>
      change (openLibrary host l name? flags caller w).1.2.cache.symbols.Nodup
      rwa [cache_openLibrary]
    | openExtended => exact hnodup
    | openVendor => exact hnodup
    | findSymbol handle name caller =>
      change (findSymbol host l handle name caller w).1.2.cache.symbols.Nodup
      cases hlib : l.emulated? handle with
      | none =>
        unfold findSymbol
        rw [hlib]
        exact hnodup
      | some lib =>
        rw [cache_findSymbol host l w hnodup hlib]
        cases described? host w l lib handle (Text.decodeLossy name) with
        | none => exact hnodup
        | some descriptor => exact Cache.nodup_insert descriptor hnodup

namespace Run

theorem nodup_symbols (run : Run host l w) (hnodup : l.cache.symbols.Nodup) :
    run.linker.cache.symbols.Nodup := by
  induction run using induction with
  | nil => exact hnodup
  | next run request ih => exact nodup_symbols_perform host run.linker run.world ih request

theorem handle_ne_zero (run : Run host l w) (hfree : (l.slot i).binding? = none)
    (hbound : (run.linker.slot i).binding? = some ⟨handle, .emulated⟩) : handle ≠ 0 := by
  obtain ⟨_, _, _, -, hbinds⟩ := run.exists_binds hfree hbound
  exact hbinds.mem_loaded.1

end Run

/-- After any run from a fresh linker, a look-up on the handle of an emulated library that is
answered with nothing has not asked the platform, and if it resolved its symbol the cache is as
after an insert of the descriptor. All else in the linker is as it was. -/
theorem failed_lookUp_keeps {config : Config} {pageSize : Nat} {l₀ : Linker}
    (hfresh : create config pageSize = .ok l₀) {w₀ : W} (run : Run host l₀ w₀)
    (hbound : (run.linker.slot i).binding? = some ⟨handle, .emulated⟩) :
    ∃ lib, run.linker.emulated? handle = some lib ∧ ∀ (name : RawName) (caller : UInt64),
      let symbol := Text.decodeLossy name
      let step := Run.single host run.linker run.world (.query (.findSymbol handle name caller))
      step.answers = [.nothing] →
        (∀ p, .platform p ∉ step.calls) ∧
        step.linker = { run.linker with
          cache := (described? host run.world run.linker lib handle symbol).elim run.linker.cache
            (run.linker.cache.insert symbol) } := by
  obtain ⟨-, hslots⟩ := create_eq_ok hfresh
  have hnodup : run.linker.cache.symbols.Nodup := by
    refine run.nodup_symbols ?_
    rw [eq_of_create hfresh]
    exact List.nodup_nil
  have hne : handle ≠ 0 := run.handle_ne_zero (by rw [hslots]) hbound
  -- another library may have been loaded under the handle too, and then the first one answers
  obtain ⟨lib, hlib⟩ : ∃ lib, run.linker.emulated? handle = some lib := by
    refine Option.ne_none_iff_exists'.mp fun hnone => ?_
    rcases emulated?_eq_none_iff.mp hnone with hzero | hunbound
    · exact hne hzero
    · exact hunbound i hbound
  refine ⟨lib, hlib, ?_⟩
  intro name caller symbol step hanswers
  have hanswer : (run.linker.perform host (.query (.findSymbol handle name caller))
      run.world).1.1 = .nothing := List.singleton_inj.mp hanswers
  have hcache : step.linker.cache = _ :=
    cache_findSymbol host run.linker run.world hnodup hlib name caller
  have hperformed := run.performed_next (.query (.findSymbol handle name caller))
  cases hperformed with
  | found hfound =>
    obtain ⟨out, hout, hbridged⟩ := hfound.bridged_of_nothing hanswer hlib
    refine ⟨hbridged.offPlatform, ?_⟩
    rw [← hcache]
    exact hbridged.eq_of_ne hout

/-- No page is as long as the stub, for which the symbol has been resolved by then. -/
theorem failed_lookUp_keeps_bullet : ∃ l₀, create {} 64 = .ok l₀ ∧
    ∃ run : Run CountedWorld.host l₀ ⟨10⟩,
      (run.linker.slot 1).binding? = some ⟨0x500b, .emulated⟩ ∧
      let step := Run.single CountedWorld.host run.linker run.world
        (.query (.findSymbol 0x500b (Text.encode "Java_a_B_m") 0))
      step.answers = [.nothing] ∧
      step.linker = { run.linker with cache := run.linker.cache.insert "Java_a_B_m" "()V" } := by
  let l₀ : Linker := { fresh with slots := .replicate 10 ⟨none, .empty 64⟩ }
  let run := (Run.nil CountedWorld.host l₀ ⟨10⟩).next
    (.query (.openLibrary (some (Text.encode "libPZBullet64.so")) 2 0))
  have hfresh : create {} 64 = .ok l₀ := rfl
  have hbound : (run.linker.slot 1).binding? = some ⟨0x500b, .emulated⟩ := by
    decide +kernel
  have hemulated : run.linker.emulated? 0x500b = some (Library.known.get 1) := by
    decide +kernel
  have hsymbol : Text.decodeLossy (Text.encode "Java_a_B_m") = "Java_a_B_m" := by
    decide +kernel
  have hdescribed : described? CountedWorld.host run.world run.linker (Library.known.get 1) 0x500b
      "Java_a_B_m" = some "()V" := by
    decide +kernel
  have hanswers : (Run.single CountedWorld.host run.linker run.world
      (.query (.findSymbol 0x500b (Text.encode "Java_a_B_m") 0))).answers = [.nothing] := by
    decide +kernel
  obtain ⟨lib, hlib, hfailed⟩ := failed_lookUp_keeps hfresh run hbound
  obtain rfl : Library.known.get 1 = lib := Option.some.inj (hemulated.symm.trans hlib)
  obtain ⟨-, hlinker⟩ := hfailed (Text.encode "Java_a_B_m") 0 hanswers
  rw [hsymbol, hdescribed] at hlinker
  exact ⟨l₀, hfresh, run, hbound, hanswers, hlinker⟩

end Linker

end NativeBridge
