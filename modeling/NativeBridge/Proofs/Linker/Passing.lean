import NativeBridge.Proofs.Linker.Bindings

/-! # Queries that pass

A query that a linker has no part in is put to the platform as it stands, bytes and all, and the
platform's answer is the linker's. A query that is redirected to Vulkan is put to nobody. Neither
leaves a trace in the linker.
-/

namespace NativeBridge

variable {W Q : Type}

theorem Library.forFilename?_eq_none_iff {filename : String} : forFilename? filename = none ↔
    ∀ i, Text.contains filename (known.get i).name = false := by
  rw [forFilename?, List.find?_eq_none]
  constructor
  · intro h i
    exact Bool.eq_false_iff.mpr (h _ (get_mem_known i))
  · intro h lib hmem
    rw [← get_index_of_mem hmem]
    exact Bool.eq_false_iff.mp (h lib.index)

/-- Whether a call puts a query to the platform as it stands, and this is what comes of it. -/
inductive Query.Asks : Query → Option UInt64 → PlatformCall → Prop
  | openLibrary (name? : Option RawName) (flags : Int32) (caller : UInt64)
      (answer : Option UInt64) :
    Asks (.openLibrary name? flags caller) answer (.openLibrary name? flags caller answer)
  | openExtended (name : RawName) (flags : Int32) (info : Option ExtendedInfo) (caller : UInt64)
      (answer : Option UInt64) :
    Asks (.openExtended name flags info caller) answer
      (.openExtended name flags info caller answer)
  | findSymbol (handle : UInt64) (name : RawName) (caller : UInt64) (answer : Option UInt64) :
    Asks (.findSymbol handle name caller) answer (.findSymbol handle name caller answer)

theorem Traced.recording_map {C α β : Type} {w : W} {x : StateM W α} {f : α → β} {call : α → C}
    {P : β → List C → Prop} (h : P (f (x w).1) [call (x w).1]) :
    Traced w (f <$> NativeBridge.recording x call) (f <$> x) P :=
  ⟨[call (x w).1], fun _ => rfl, h⟩

namespace Linker

variable {l : Linker} {q : Query} {handle : UInt64}

/-- The queries that a linker has no part in. -/
inductive Passes (l : Linker) : Query → Prop
  | program (flags : Int32) (caller : UInt64) : Passes l (.openLibrary none flags caller)
  | unknown {name : RawName} (flags : Int32) (caller : UInt64) :
    (∀ i, Text.contains (Text.decodeLossy name) (Library.known.get i).name = false) →
    ¬(Text.decodeLossy name = l.config.vulkanLoader ∧ l.vulkanLoader ≠ 0) →
    Passes l (.openLibrary (some name) flags caller)
  | extended {name : RawName} (flags : Int32) (info : Option ExtendedInfo) (caller : UInt64) :
    ¬(Text.contains (Text.decodeLossy name) l.config.vulkanDriverFragment = true ∧
      l.vulkanDriver ≠ 0) →
    Passes l (.openExtended name flags info caller)
  | unbridged {handle : UInt64} (name : RawName) (caller : UInt64) :
    (handle = 0 ∨ ∀ i, (l.slot i).binding? ≠ some ⟨handle, .emulated⟩) →
    Passes l (.findSymbol handle name caller)

/-- The queries that are answered with a Vulkan handle. -/
inductive Redirects (l : Linker) : Query → UInt64 → Prop
  | loader {name : RawName} (flags : Int32) (caller : UInt64) :
    (∀ i, Text.contains (Text.decodeLossy name) (Library.known.get i).name = false) →
    Text.decodeLossy name = l.config.vulkanLoader → l.vulkanLoader ≠ 0 →
    Redirects l (.openLibrary (some name) flags caller) l.vulkanLoader
  | extended {name : RawName} (flags : Int32) (info : Option ExtendedInfo) (caller : UInt64) :
    Text.contains (Text.decodeLossy name) l.config.vulkanDriverFragment = true →
    l.vulkanDriver ≠ 0 →
    Redirects l (.openExtended name flags info caller) l.vulkanDriver
  | vendor {name : RawName} (flags : Int32) (caller : UInt64) :
    Text.contains (Text.decodeLossy name) l.config.vulkanDriverFragment = true →
    l.vulkanDriver ≠ 0 →
    Redirects l (.openVendor name flags caller) l.vulkanDriver

variable [Journal W] {w : W}

/-- What the platform does about a query that passes is all that is done about it. -/
theorem Passes.answer_eq (h : l.Passes q) (host : Host W Q) :
    l.answer host q = (do return (← host.platform.answer l.config.vendorNamespaces q, l)) := by
  cases h with
  | program => rfl
  | @unknown name flags caller hname hvulkan =>
    have hlib := Library.forFilename?_eq_none_iff.mpr hname
    have hloader : l.vulkanLoaderFor? (Text.decodeLossy name) = none := if_neg hvulkan
    simp only [answer, openLibrary, hlib, hloader]
    rfl
  | @extended name flags info caller hvulkan =>
    have hdriver : l.vulkanDriverFor? (Text.decodeLossy name) = none := if_neg hvulkan
    simp only [answer, openExtended, hdriver]
    rfl
  | unbridged name caller hhandle =>
    simp only [answer, findSymbol, emulated?_eq_none_iff.mpr hhandle]
    rfl

theorem Redirects.answer_eq (h : l.Redirects q handle) (host : Host W Q) :
    l.answer host q = pure (.value handle, l) := by
  cases h with
  | @loader name flags caller hname hvulkan hne =>
    have hlib := Library.forFilename?_eq_none_iff.mpr hname
    have hloader : l.vulkanLoaderFor? (Text.decodeLossy name) = some l.vulkanLoader :=
      if_pos ⟨hvulkan, hne⟩
    simp only [answer, openLibrary, hlib, hloader]
    rfl
  | @extended name flags info caller hvulkan hne =>
    have hdriver : l.vulkanDriverFor? (Text.decodeLossy name) = some l.vulkanDriver :=
      if_pos ⟨hvulkan, hne⟩
    simp only [answer, openExtended, hdriver]
    rfl
  | @vendor name flags caller hvulkan hne =>
    have hdriver : l.vulkanDriverFor? (Text.decodeLossy name) = some l.vulkanDriver :=
      if_pos ⟨hvulkan, hne⟩
    simp only [answer, openVendor, hdriver]
    rfl

theorem Passes.answer_traced (h : l.Passes q) (namespaces : List String) (p : Platform W) :
    Traced w (p.recorded.answer namespaces q) (p.answer namespaces q)
      fun answer (calls : List (Call Q)) => ∃ value? call, answer = .ofValue? value? ∧
        calls = [.platform call] ∧ q.Asks value? call := by
  cases h with
  | program flags caller => exact .recording_map ⟨_, _, rfl, rfl, .openLibrary ..⟩
  | unknown flags caller => exact .recording_map ⟨_, _, rfl, rfl, .openLibrary ..⟩
  | extended flags info caller => exact .recording_map ⟨_, _, rfl, rfl, .openExtended ..⟩
  | unbridged name caller => exact .recording_map ⟨_, _, rfl, rfl, .findSymbol ..⟩

/-- Whatever a linker has bound and installed, a query that it has no part in comes down to one call
that puts this query to the platform as it stands. The linker is left as it was, and the world as
the platform leaves it. A query that is redirected is answered with the installed handle, and there
is no call. -/
theorem passes_unchanged (host : Host W Q) (l : Linker) (w : W) :
    (∀ q, l.Passes q →
      l.answer host q w = (((host.platform.answer l.config.vendorNamespaces q w).1, l),
        (host.platform.answer l.config.vendorNamespaces q w).2) ∧
      Traced w (l.answer host.recorded q) (l.answer host q) fun out calls =>
        ∃ value? call, out = (.ofValue? value?, l) ∧ calls = [.platform call] ∧
          q.Asks value? call) ∧
    (∀ q handle, l.Redirects q handle →
      l.answer host q w = ((.value handle, l), w) ∧
      Traced w (l.answer host.recorded q) (l.answer host q) fun out calls =>
        out = (.value handle, l) ∧ calls = []) := by
  constructor
  · intro q h
    constructor
    · rw [h.answer_eq]
      rfl
    · rw [h.answer_eq, h.answer_eq]
      apply (h.answer_traced _ _).bind
      rintro calls ⟨value?, call, hanswer, rfl, hasks⟩
      apply Traced.pure
      exact ⟨value?, call, by rw [hanswer], rfl, hasks⟩
  · intro q handle h
    constructor
    · rw [h.answer_eq]
      rfl
    · rw [h.answer_eq, h.answer_eq]
      exact .pure ⟨rfl, rfl⟩

/-- A name that is not UTF-8 and stands for nothing known reaches the platform. -/
theorem passes_unchanged_raw :
    fresh.Passes (.openLibrary (some [0x6c, 0xff]) 2 0) ∧
    fresh.answer CountedWorld.host (.openLibrary (some [0x6c, 0xff]) 2 0) ⟨1⟩ =
      ((.value 0x7001, fresh), ⟨2⟩) := by
  have h : fresh.Passes (.openLibrary (some [0x6c, 0xff]) 2 0) :=
    .unknown 2 0 (by decide +kernel) (by decide)
  obtain ⟨hpasses, -⟩ := passes_unchanged CountedWorld.host fresh ⟨1⟩
  exact ⟨h, (hpasses _ h).1⟩

end Linker

end NativeBridge
