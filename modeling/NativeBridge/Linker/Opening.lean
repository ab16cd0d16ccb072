import NativeBridge.Linker

/-! # Opening libraries

An open of a known library is answered from its slot once the slot is bound. The first open binds
it, to a build for the host's processor if the library's policy prefers one and it is there, and
otherwise to the emulator. A failed open binds nothing. All other opens go to the platform, except
for those that the installed Vulkan handles answer.
-/

namespace NativeBridge.Linker

variable {W Q : Type}

def lastComponent (path : String) : String :=
  String.ofList ((Text.pieces (· == '/') path.toList).getLast?.getD [])

def pathIn (directory file : String) : String :=
  if directory.isEmpty ∨ directory.toList.getLast? = some '/' then directory ++ file
  else directory ++ "/" ++ file

/-- Where a build for the host's processor is looked for. -/
def nativePath (config : Config) (name : String) : String :=
  pathIn config.nativeDirectory (lastComponent name)

/-- Opens a build for the host's processor. A path that holds a zero byte cannot be asked for. -/
def openNative (host : Host W Q) (path : String) (flags : Int32) (caller : UInt64) :
    StateM W (Except LoadDefect Binding) := do
  let handle? ←
    if '\x00' ∈ path.toList then pure none
    else host.platform.openLibrary (some (Text.encode path)) flags caller
  match handle? with
  | some handle => return .ok ⟨handle, .native⟩
  | none => return .error (.unopened path)

def openEmulated (host : Host W Q) (name : String) (flags : Int32) :
    StateM W (Except LoadDefect Binding) := do
  match ← host.emulator.load name (.ofOpenFlags flags) with
  | .error reason => return .error (.refused reason)
  | .ok handle =>
    if handle = 0 then return .error .nullHandle
    else
      host.emulator.replayInScope
      return .ok ⟨handle, .emulated⟩

variable [Journal W]

/-- Opens a library for the first time. -/
def bind (host : Host W Q) (config : Config) (policy : Policy) (name : String) (flags : Int32)
    (caller : UInt64) : StateM W (Except LoadDefect Binding) := do
  match policy with
  | .alwaysEmulated => openEmulated host name flags
  | .preferNative =>
    let path := nativePath config name
    if ← host.platform.hasFile path then openNative host path flags caller
    else
      note (.noNativeBuild path name)
      openEmulated host name flags

def openKnown (host : Host W Q) (l : Linker) (lib : Library) (name : String) (flags : Int32)
    (caller : UInt64) : StateM W (Option UInt64 × Linker) := do
  match (l.slot lib.index).binding? with
  | some bound => return (some bound.handle, l)
  | none =>
    match ← bind host l.config lib.policy name flags caller with
    | .ok bound => return (some bound.handle, l.withBinding lib.index bound)
    | .error defect =>
      note (.unbound (.load lib.name defect))
      return (none, l)

/-- Answers an open; without a name it is of the program itself. -/
def openLibrary (host : Host W Q) (l : Linker) (name? : Option RawName) (flags : Int32)
    (caller : UInt64) : StateM W (Option UInt64 × Linker) := do
  match name? with
  | none => return (← host.platform.openLibrary none flags caller, l)
  | some raw =>
    let name := Text.decodeLossy raw
    match Library.forFilename? name with
    | some lib => openKnown host l lib name flags caller
    | none =>
      match l.vulkanLoaderFor? name with
      | some handle => return (some handle, l)
      | none => return (← host.platform.openLibrary (some raw) flags caller, l)

def openExtended (host : Host W Q) (l : Linker) (name : RawName) (flags : Int32)
    (info : Option ExtendedInfo) (caller : UInt64) : StateM W (Option UInt64) := do
  match l.vulkanDriverFor? (Text.decodeLossy name) with
  | some handle => return some handle
  | none => host.platform.openExtended name flags info caller

def openVendor (host : Host W Q) (l : Linker) (name : RawName) (flags : Int32)
    (caller : UInt64) : StateM W (Option UInt64) := do
  match l.vulkanDriverFor? (Text.decodeLossy name) with
  | some handle => return some handle
  | none => host.platform.openInNamespaces l.config.vendorNamespaces name flags caller

end NativeBridge.Linker
