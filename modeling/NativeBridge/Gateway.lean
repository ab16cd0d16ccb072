import NativeBridge.Config.Layers
import NativeBridge.Linker.Request
import NativeBridge.Loader

/-! # The gateway

All queries of a process pass one gateway. It has room for a linker, for the loader's entry
points, and for the Vulkan handles that the host tells before there is a linker. The linker and
the entry points are installed once and stay. Queries go to the linker, until there is one to the
entry points, and before that find nothing.
-/

namespace NativeBridge

/-- A linker in use, with what it works with. -/
structure Armed (W Q : Type) where
  host : Host W Q
  linker : Linker

/-- Entry points in use, and what is known of their namespace function. -/
structure Installed (W : Type) where
  loader : Loader W
  known : NamespaceFunction

/-- What the system tells a process that arms itself: its variables, the contents of files, and the
size of pages. -/
structure Environment where
  lookup : String → Option String
  read : FileReader
  pageSize : PageSizeAnswer

def Environment.linker (env : Environment) : Except SetupFailure Linker := do
  let config ← (Config.ofVariables env.lookup env.read).mapError fun fault => .fault (.config fault)
  Linker.ofSystem config env.pageSize

structure Gateway (W Q : Type) where
  armed? : Option (Armed W Q)
  loader? : Option (Installed W)
  vulkanLoader : UInt64
  vulkanDriver : UInt64

namespace Gateway

variable {W Q : Type}

def fresh : Gateway W Q :=
  ⟨none, none, 0, 0⟩

/-- Installs the entry points, unless there are some already. -/
def installLoader (g : Gateway W Q) (loader : Loader W) : Gateway W Q :=
  { g with loader? := g.loader?.or (some ⟨loader, none⟩) }

def setVulkanLoader (g : Gateway W Q) (handle : UInt64) : Gateway W Q :=
  { g with
    vulkanLoader := handle
    armed? := g.armed?.map fun a => { a with linker := { a.linker with vulkanLoader := handle } } }

def setVulkanDriver (g : Gateway W Q) (handle : UInt64) : Gateway W Q :=
  { g with
    vulkanDriver := handle
    armed? := g.armed?.map fun a => { a with linker := { a.linker with vulkanDriver := handle } } }

/-- The linker with the handles of the gateway in place of its own, as far as there are any. -/
def withHandles (g : Gateway W Q) (l : Linker) : Linker :=
  { l with
    vulkanLoader := if g.vulkanLoader = 0 then l.vulkanLoader else g.vulkanLoader
    vulkanDriver := if g.vulkanDriver = 0 then l.vulkanDriver else g.vulkanDriver }

/-- Installs a linker, unless there is one already. -/
def arm (g : Gateway W Q) (host : Host W Q) (l : Linker) : Except LinkFault (Gateway W Q) :=
  match g.armed? with
  | none => .ok { g with armed? := some ⟨host, g.withHandles l⟩ }
  | some _ => .error (.config .alreadyInstalled)

/-- Installs a linker, if it could be made and there is none already. -/
def armMade (g : Gateway W Q) (host : Host W Q) (made : Except SetupFailure Linker) :
    Except SetupFailure (Gateway W Q) := do
  (g.arm host (← made)).mapError .fault

def armFromEnvironment (g : Gateway W Q) (host : Host W Q) (env : Environment) :
    Except SetupFailure (Gateway W Q) :=
  g.armMade host env.linker

def armed (g : Gateway W Q) : Except LinkFault (Armed W Q) :=
  match g.armed? with
  | some a => .ok a
  | none => .error .notArmed

variable [Journal W]

/-- Installs the entry points that the host hands over, if all of them are there. -/
def setEntryPoints (g : Gateway W Q)
    (openLibrary : Option (OpenFunction W)) (findSymbol : Option (SymbolFunction W))
    (openExtended : Option (ExtendedOpenFunction W)) : StateM W (Gateway W Q) := do
  match openLibrary, findSymbol, openExtended with
  | some openLibrary, some findSymbol, some openExtended =>
    return g.installLoader { openLibrary, findSymbol, openExtended }
  | _, _, _ =>
    note .incompleteLoader
    return g

def answerWith (s : Surroundings W) (g : Gateway W Q) (i : Installed W) (q : Query) :
    StateM W (Answer × Gateway W Q) := do
  let platform := i.loader.platform s
  let (answer, world, known) := platform.answer ({} : Config).vendorNamespaces q (← get, i.known)
  set world
  return (answer, { g with loader? := some { i with known } })

/-- What is noted where nothing can answer a query. -/
def unanswered : Query → StateM W Unit
  | .openVendor name _ _ => note (.noLoader (Text.decodeLossy name))
  | _ => return

def answer (s : Surroundings W) (g : Gateway W Q) (q : Query) :
    StateM W (Answer × Gateway W Q) := do
  match g.armed? with
  | some a =>
    let (answer, linker) ← a.linker.answer a.host q
    return (answer, { g with armed? := some { a with linker } })
  | none =>
    match g.loader? with
    | some i => g.answerWith s i q
    | none =>
      unanswered q
      return (.nothing, g)

end Gateway

end NativeBridge
