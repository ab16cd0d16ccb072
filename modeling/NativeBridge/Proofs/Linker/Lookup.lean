import NativeBridge.Linker.Lookup
import NativeBridge.Proofs.Resolution.Search

/-! # Calls of a look-up

What a look-up asks of its collaborators, what it answers and what it leaves of the linker, for all
answers of the collaborators. The relations follow the functions: a stub is made, an emulated
function is bridged, a symbol is looked up.
-/

namespace NativeBridge.Linker

open Resolution

variable {W Q : Type}

/-- What comes of making a stub. -/
inductive Made (l : Linker) (i : LibraryIndex) (sig : Signature) (function : UInt64) :
    Except LinkFault Place × Linker → List (Call Q) → Prop
  | placed {env dispatcher : UInt64} {place : Place} {pages : Pages} :
    Stub.install (l.slot i).pages sig ⟨env, dispatcher, function⟩ = .ok (place, pages) →
    Made l i sig function (.ok place, l.withPages i pages)
      [.emulator (.wrappedEnv env), .emulator (.callEntry dispatcher)]
  | refused {env dispatcher : UInt64} {fault : Fault} :
    Stub.install (l.slot i).pages sig ⟨env, dispatcher, function⟩ = .error fault →
    Made l i sig function (.error (.stub fault), l)
      [.emulator (.wrappedEnv env), .emulator (.callEntry dispatcher)]

/-- What comes of bridging a function in the world `w`. -/
inductive FunctionBridged [Journal W] (rt : ManagedRuntime W) (w : W) (l : Linker)
    (i : LibraryIndex) (symbol : String) (function : UInt64) :
    Except LinkFault Place × Linker → List (Call Q) → Prop
  | unresolved {fault : LinkFault} {cache : Cache} {calls : List (Call Q)} :
    Resolved l.cache symbol (.error fault, cache) calls →
    FunctionBridged rt w l i symbol function (.error fault, { l with cache }) calls
  | undecoded {descriptor : String} {fault : Fault} {cache : Cache} {calls : List (Call Q)} :
    Resolved l.cache symbol (.ok descriptor, cache) calls →
    Descriptor.decode descriptor = .error fault →
    FunctionBridged rt w l i symbol function (.error (.stub fault), { l with cache }) calls
  | decoded {descriptor : String} {sig : Signature} {cache : Cache} {calls more : List (Call Q)}
      {out : Except LinkFault Place × Linker} :
    (resolve rt symbol l.cache w).1 = (.ok descriptor, cache) →
    Resolved l.cache symbol (.ok descriptor, cache) calls →
    Descriptor.decode descriptor = .ok sig →
    Made { l with cache } i sig.native function out more →
    FunctionBridged rt w l i symbol function out (calls ++ more)

/-- The calls that give the thread an environment, if the symbol's function asks for one. -/
inductive Attached (symbol : String) : List (Call Q) → Prop
  | needless : symbol ≠ Library.audioCreateSymbol → Attached symbol []
  | asked (answer : Except IntrospectionFault Unit) :
    symbol = Library.audioCreateSymbol → Attached symbol [.runtime (.attachThread answer)]

/-- What comes of bridging a symbol in the world `w`. -/
inductive Bridged [Journal W] (host : Host W Q) (w : W) (l : Linker) (lib : Library)
    (handle : UInt64) (symbol : String) :
    Except LinkFault (Option Place) × Linker → List (Call Q) → Prop
  | audio {made : Except LinkFault Place} {l' : Linker} {calls : List (Call Q)} :
    isAudioQuery lib symbol = true →
    Made l lib.index audioDevicesSignature host.audioDevices (made, l') calls →
    Bridged host w l lib handle symbol (made.map some, l') calls
  | unknown :
    isAudioQuery lib symbol = false →
    Bridged host w l lib handle symbol (.ok none, l)
      [.emulator (.findSymbol handle symbol none)]
  | function {function : UInt64} {made : Except LinkFault Place} {l' : Linker}
      {attach calls : List (Call Q)} :
    isAudioQuery lib symbol = false → Attached symbol attach →
    FunctionBridged host.runtime
      (attachFor host symbol (host.emulator.findSymbol handle symbol w).2).2 l lib.index symbol
      function (made, l') calls →
    Bridged host w l lib handle symbol (made.map some, l')
      (.emulator (.findSymbol handle symbol (some function)) :: (attach ++ calls))

/-- What comes of a look-up in the world `w`. -/
inductive Found [Journal W] (host : Host W Q) (w : W) (l : Linker) (handle : UInt64)
    (name : RawName) (caller : UInt64) : Answer × Linker → List (Call Q) → Prop
  | passed (answer : Option UInt64) :
    l.emulated? handle = none →
    Found host w l handle name caller (.ofValue? answer, l)
      [.platform (.findSymbol handle name caller answer)]
  | bridged {lib : Library} {place : Place} {l' : Linker} {calls : List (Call Q)} :
    l.emulated? handle = some lib →
    Bridged host w l lib handle (Text.decodeLossy name) (.ok (some place), l') calls →
    Found host w l handle name caller (.stub lib.index place, l') calls
  | unknown {lib : Library} {l' : Linker} {calls : List (Call Q)} :
    l.emulated? handle = some lib →
    Bridged host w l lib handle (Text.decodeLossy name) (.ok none, l') calls →
    Found host w l handle name caller (.nothing, l') calls
  | failed {lib : Library} {fault : LinkFault} {l' : Linker} {calls : List (Call Q)} :
    l.emulated? handle = some lib →
    Bridged host w l lib handle (Text.decodeLossy name) (.error fault, l') calls →
    Found host w l handle name caller (.nothing, l') calls

variable {host : Host W Q} {w : W} {l : Linker}

theorem makeStub_traced (i : LibraryIndex) (sig : Signature) (function : UInt64) :
    Traced w (makeStub host.recorded l i sig function) (makeStub host l i sig function)
      (Made (Q := Q) l i sig function) := by
  refine .recording_bind (.recording_bind ?_)
  cases hinstall : Stub.install (l.slot i).pages sig ⟨(host.emulator.wrappedEnv w).1,
      (host.emulator.callEntry (host.emulator.wrappedEnv w).2).1, function⟩ with
  | error fault => exact .pure (.refused hinstall)
  | ok placed => exact .pure (.placed hinstall)

variable [Journal W]

theorem bridgeFunction_traced (i : LibraryIndex) (symbol : String) (function : UInt64) :
    Traced w (bridgeFunction host.recorded l i symbol function)
      (bridgeFunction host l i symbol function)
      (FunctionBridged host.runtime w l i symbol function) := by
  refine .bind (resolve_traced symbol l.cache) fun calls hcalls => ?_
  rcases hout : (resolve host.runtime symbol l.cache w).1 with ⟨resolved, cache⟩
  rw [hout] at hcalls
  cases resolved with
  | error fault => exact .done (.unresolved hcalls)
  | ok descriptor =>
    dsimp only
    cases hdecode : Descriptor.decode descriptor with
    | error fault => exact .done (.undecoded hcalls hdecode)
    | ok sig =>
      exact (makeStub_traced i sig.native function).mono fun _ hmade =>
        .decoded hout hcalls hdecode hmade

theorem attachFor_traced (symbol : String) :
    Traced w (attachFor host.recorded symbol) (attachFor host symbol)
      fun _ calls => Attached (Q := Q) symbol calls := by
  unfold attachFor
  by_cases hsymbol : symbol = Library.audioCreateSymbol
  · rw [if_pos hsymbol, if_pos hsymbol]
    refine .recording_bind ?_
    cases (host.runtime.attachThread w).1 with
    | ok => exact .pure (.asked _ hsymbol)
    | error fault => exact .note (.asked _ hsymbol)
  · rw [if_neg hsymbol, if_neg hsymbol]
    exact .pure (.needless hsymbol)

theorem bridge_traced (lib : Library) (handle : UInt64) (symbol : String) :
    Traced w (bridge host.recorded l lib handle symbol) (bridge host l lib handle symbol)
      (Bridged host w l lib handle symbol) := by
  unfold bridge
  cases haudio : isAudioQuery lib symbol with
  | true =>
    refine .bind (makeStub_traced lib.index audioDevicesSignature host.audioDevices) ?_
    intro calls hmade
    exact .done (.audio haudio hmade)
  | false =>
    refine .recording_bind ?_
    cases (host.emulator.findSymbol handle symbol w).1 with
    | none => exact .pure (.unknown haudio)
    | some function =>
      refine .bind (attachFor_traced symbol) fun attach hattach => ?_
      refine .bind (bridgeFunction_traced lib.index symbol function) fun calls hcalls => ?_
      refine .pure ?_
      rw [List.append_nil]
      exact .function haudio hattach hcalls

theorem findSymbol_traced (handle : UInt64) (name : RawName) (caller : UInt64) :
    Traced w (findSymbol host.recorded l handle name caller) (findSymbol host l handle name caller)
      (Found host w l handle name caller) := by
  unfold findSymbol
  cases hemulated : l.emulated? handle with
  | none => exact .recording_bind (.pure (.passed _ hemulated))
  | some lib =>
    refine .bind (bridge_traced lib handle (Text.decodeLossy name)) fun calls hcalls => ?_
    rcases hmade : (bridge host l lib handle (Text.decodeLossy name) w).1 with ⟨made, l'⟩
    rw [hmade] at hcalls
    cases made with
    | error fault => exact .note_bind (.done (.failed hemulated hcalls))
    | ok place? =>
      cases place? with
      | none => exact .done (.unknown hemulated hcalls)
      | some place => exact .done (.bridged hemulated hcalls)

variable {lib : Library} {handle : UInt64} {symbol : String} {l' : Linker} {calls : List (Call Q)}

/-- Where the signature and the function of a stub come from, and the calls that ask for them. -/
inductive Origin (host : Host W Q) (w : W) (l : Linker) (lib : Library) (handle : UInt64)
    (symbol : String) : Signature → UInt64 → List (Call Q) → Prop
  | audio :
    isAudioQuery lib symbol = true →
    Origin host w l lib handle symbol audioDevicesSignature host.audioDevices []
  | resolved {function : UInt64} {descriptor : String} {sig : Signature} {cache : Cache}
      {attach calls : List (Call Q)} :
    isAudioQuery lib symbol = false → Attached symbol attach →
    (resolve host.runtime symbol l.cache
      (attachFor host symbol (host.emulator.findSymbol handle symbol w).2).2).1 =
        (.ok descriptor, cache) →
    Resolved l.cache symbol (.ok descriptor, cache) calls →
    Descriptor.decode descriptor = .ok sig →
    Origin host w l lib handle symbol sig.native function
      (.emulator (.findSymbol handle symbol (some function)) :: (attach ++ calls))

/-- A stub that is made for a symbol and placed on the pages of its library. -/
inductive Placed (host : Host W Q) (w : W) (l : Linker) (lib : Library) (handle : UInt64)
    (symbol : String) : Place × Linker → List (Call Q) → Prop
  | mk {sig : Signature} {function env dispatcher : UInt64} {calls : List (Call Q)} {place : Place}
      {cache : Cache} {pages : Pages} :
    Origin host w l lib handle symbol sig function calls →
    Stub.install (l.slot lib.index).pages sig ⟨env, dispatcher, function⟩ = .ok (place, pages) →
    Placed host w l lib handle symbol (place, { l with cache }.withPages lib.index pages)
      (calls ++ [.emulator (.wrappedEnv env), .emulator (.callEntry dispatcher)])

/-- A look-up of a symbol that comes to no stub, and the calls up to where it ends. -/
inductive Unplaced (host : Host W Q) (w : W) (l : Linker) (lib : Library) (handle : UInt64)
    (symbol : String) : List (Call Q) → Prop
  | unknown :
    isAudioQuery lib symbol = false →
    Unplaced host w l lib handle symbol [.emulator (.findSymbol handle symbol none)]
  | unresolved {function : UInt64} {fault : LinkFault} {cache : Cache}
      {attach calls : List (Call Q)} :
    isAudioQuery lib symbol = false → Attached symbol attach →
    Resolved l.cache symbol (.error fault, cache) calls →
    Unplaced host w l lib handle symbol
      (.emulator (.findSymbol handle symbol (some function)) :: (attach ++ calls))
  | undecoded {function : UInt64} {descriptor : String} {fault : Fault} {cache : Cache}
      {attach calls : List (Call Q)} :
    isAudioQuery lib symbol = false → Attached symbol attach →
    Resolved l.cache symbol (.ok descriptor, cache) calls →
    Descriptor.decode descriptor = .error fault →
    Unplaced host w l lib handle symbol
      (.emulator (.findSymbol handle symbol (some function)) :: (attach ++ calls))
  | refused {sig : Signature} {function env dispatcher : UInt64} {fault : Fault}
      {calls : List (Call Q)} :
    Origin host w l lib handle symbol sig function calls →
    Stub.install (l.slot lib.index).pages sig ⟨env, dispatcher, function⟩ = .error fault →
    Unplaced host w l lib handle symbol
      (calls ++ [.emulator (.wrappedEnv env), .emulator (.callEntry dispatcher)])

/-- Bridging places a stub, or it leaves the slots as they were. -/
theorem Bridged.placed_or_unplaced {out : Except LinkFault (Option Place)}
    (h : Bridged host w l lib handle symbol (out, l') calls) :
    (∃ place, out = .ok (some place) ∧ Placed host w l lib handle symbol (place, l') calls) ∨
    ((∀ place, out ≠ .ok (some place)) ∧ l'.slots = l.slots ∧ l'.config = l.config ∧
      Unplaced host w l lib handle symbol calls) := by
  cases h with
  | audio haudio h =>
    cases h with
    | placed hinstall => exact .inl ⟨_, rfl, .mk (.audio haudio) hinstall⟩
    | refused hinstall => exact .inr ⟨nofun, rfl, rfl, .refused (.audio haudio) hinstall⟩
  | unknown haudio => exact .inr ⟨nofun, rfl, rfl, .unknown haudio⟩
  | function haudio hattach h =>
    cases h with
    | unresolved hcalls => exact .inr ⟨nofun, rfl, rfl, .unresolved haudio hattach hcalls⟩
    | undecoded hcalls hdecode =>
      exact .inr ⟨nofun, rfl, rfl, .undecoded haudio hattach hcalls hdecode⟩
    | decoded hresolve hcalls hdecode h =>
      rw [← List.append_assoc, ← List.cons_append]
      cases h with
      | placed hinstall =>
        refine .inl ⟨_, rfl, .mk ?_ hinstall⟩
        exact .resolved haudio hattach hresolve hcalls hdecode
      | refused hinstall =>
        refine .inr ⟨nofun, rfl, rfl, .refused ?_ hinstall⟩
        exact .resolved haudio hattach hresolve hcalls hdecode

theorem Bridged.placed {place : Place}
    (h : Bridged host w l lib handle symbol (.ok (some place), l') calls) :
    Placed host w l lib handle symbol (place, l') calls := by
  rcases h.placed_or_unplaced with ⟨_, hplace, hplaced⟩ | ⟨hne, -⟩
  · obtain rfl := Option.some.inj (Except.ok.inj hplace)
    exact hplaced
  · exact absurd rfl (hne place)

theorem Bridged.unplaced {out : Except LinkFault (Option Place)}
    (h : Bridged host w l lib handle symbol (out, l') calls)
    (hout : ∀ place, out ≠ .ok (some place)) :
    l'.slots = l.slots ∧ l'.config = l.config ∧ Unplaced host w l lib handle symbol calls := by
  rcases h.placed_or_unplaced with ⟨place, hplace, -⟩ | ⟨-, hunplaced⟩
  · exact absurd hplace (hout place)
  · exact hunplaced

end NativeBridge.Linker
