import NativeBridge.Descriptor.Reader
import NativeBridge.Linker
import NativeBridge.Query
import NativeBridge.Resolution
import NativeBridge.Stub.Installed

/-! # Looking up symbols

A symbol of an emulated library is answered with a stub made for its descriptor, on the library's
own pages. Every look-up makes a stub of its own. Symbols of all other libraries are the
platform's.
-/

namespace NativeBridge.Linker

variable {W Q : Type}

/-- The signature of a query for audio devices: environment, class and kind, to a list. -/
def audioDevicesSignature : Signature :=
  ⟨[.pointer, .pointer, .int], .pointer⟩

/-- The host's answer to such a query: no list, so that the default output is used. -/
def audioDevicesAnswer : UInt64 := 0

/-- Whether a symbol of a library is a query for audio devices, which the host answers itself. -/
def isAudioQuery (lib : Library) (symbol : String) : Bool :=
  lib.role == .audioIntegration && Text.contains symbol Library.audioDevicesFragment

def makeStub (host : Host W Q) (l : Linker) (i : LibraryIndex) (sig : Signature)
    (function : UInt64) : StateM W (Except LinkFault Place × Linker) := do
  let env ← host.emulator.wrappedEnv
  let dispatcher ← host.emulator.callEntry
  match Stub.install (l.slot i).pages sig ⟨env, dispatcher, function⟩ with
  | .ok (place, pages) => return (.ok place, l.withPages i pages)
  | .error fault => return (.error (.stub fault), l)

variable [Journal W]

def bridgeFunction (host : Host W Q) (l : Linker) (i : LibraryIndex) (symbol : String)
    (function : UInt64) : StateM W (Except LinkFault Place × Linker) := do
  let (resolved, cache) ← Resolution.resolve host.runtime symbol l.cache
  let l := { l with cache }
  match resolved with
  | .error fault => return (.error fault, l)
  | .ok descriptor =>
    match Descriptor.decode descriptor with
    | .error fault => return (.error (.stub fault), l)
    | .ok sig => makeStub host l i sig.native function

/-- Gives the calling thread an environment if the symbol's function will call back from it. -/
def attachFor (host : Host W Q) (symbol : String) : StateM W Unit := do
  if symbol = Library.audioCreateSymbol then
    match ← host.runtime.attachThread with
    | .ok () => return
    | .error fault => note (.unattached fault)

def bridge (host : Host W Q) (l : Linker) (lib : Library) (handle : UInt64) (symbol : String) :
    StateM W (Except LinkFault (Option Place) × Linker) := do
  if isAudioQuery lib symbol then
    let (made, l) ← makeStub host l lib.index audioDevicesSignature host.audioDevices
    return (made.map some, l)
  else
    match ← host.emulator.findSymbol handle symbol with
    | none => return (.ok none, l)
    | some function =>
      attachFor host symbol
      let (made, l) ← bridgeFunction host l lib.index symbol function
      return (made.map some, l)

def findSymbol (host : Host W Q) (l : Linker) (handle : UInt64) (name : RawName)
    (caller : UInt64) : StateM W (Answer × Linker) := do
  match l.emulated? handle with
  | none => return (.ofValue? (← host.platform.findSymbol handle name caller), l)
  | some lib =>
    let (made, l) ← bridge host l lib handle (Text.decodeLossy name)
    match made with
    | .ok (some place) => return (.stub lib.index place, l)
    | .ok none => return (.nothing, l)
    | .error fault =>
      note (.unbridged lib.name fault)
      return (.nothing, l)

end NativeBridge.Linker
