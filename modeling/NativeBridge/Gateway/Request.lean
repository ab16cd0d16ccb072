import NativeBridge.Gateway

/-! # Requests to the gateway

What the host and the programs of a process ask of the gateway, one by one and in sequence.
Programs may leave out a name, which only an open of the program itself makes use of.
-/

namespace NativeBridge.Gateway

inductive Request (W Q : Type)
  | setVulkanLoader (handle : UInt64)
  | setVulkanDriver (handle : UInt64)
  | arm (host : Host W Q) (linker : Linker)
  | armFromEnvironment (host : Host W Q) (env : Environment)
  | installLoader (loader : Loader W)
  | setEntryPoints (openLibrary : Option (OpenFunction W)) (findSymbol : Option (SymbolFunction W))
      (openExtended : Option (ExtendedOpenFunction W))
  | openLibrary (name? : Option RawName) (flags : Int32) (caller : UInt64)
  | openExtended (name? : Option RawName) (flags : Int32) (info : Option ExtendedInfo)
      (caller : UInt64)
  | openVendor (name? : Option RawName) (flags : Int32) (caller : UInt64)
  | findSymbol (handle : UInt64) (name? : Option RawName) (caller : UInt64)

inductive Response
  | done
  | failed (failure : SetupFailure)
  | answer (value : Answer)
  deriving DecidableEq, Repr

variable {W Q : Type}

/-- The gateway after an attempt to arm it, which leaves it alone if it fails. -/
def attempt (g : Gateway W Q) : Except SetupFailure (Gateway W Q) → Response × Gateway W Q
  | .ok armed => (.done, armed)
  | .error failure => (.failed failure, g)

variable [Journal W]

/-- Answers a query that may lack the name it is about. -/
def answerNamed (s : Surroundings W) (g : Gateway W Q) (name? : Option RawName)
    (query : RawName → Query) : StateM W (Response × Gateway W Q) := do
  match name? with
  | none => return (.answer .nothing, g)
  | some name =>
    let (answer, g) ← g.answer s (query name)
    return (.answer answer, g)

def perform (s : Surroundings W) (g : Gateway W Q) :
    Request W Q → StateM W (Response × Gateway W Q)
  | .setVulkanLoader handle => return (.done, g.setVulkanLoader handle)
  | .setVulkanDriver handle => return (.done, g.setVulkanDriver handle)
  | .arm host linker => return g.attempt (g.armMade host (.ok linker))
  | .armFromEnvironment host env => return g.attempt (g.armFromEnvironment host env)
  | .installLoader loader => return (.done, g.installLoader loader)
  | .setEntryPoints openLibrary findSymbol openExtended => do
    return (.done, ← g.setEntryPoints openLibrary findSymbol openExtended)
  | .openLibrary name? flags caller => do
    let (answer, g) ← g.answer s (.openLibrary name? flags caller)
    return (.answer answer, g)
  | .openExtended name? flags info caller =>
    g.answerNamed s name? (.openExtended · flags info caller)
  | .openVendor name? flags caller => g.answerNamed s name? (.openVendor · flags caller)
  | .findSymbol handle name? caller => g.answerNamed s name? (.findSymbol handle · caller)

def performAll (s : Surroundings W) (g : Gateway W Q) :
    List (Request W Q) → StateM W (List Response × Gateway W Q)
  | [] => return ([], g)
  | request :: others => do
    let (first, g) ← g.perform s request
    let (rest, g) ← g.performAll s others
    return (first :: rest, g)

end NativeBridge.Gateway
