import NativeBridge.Linker.Lookup
import NativeBridge.Linker.Opening

/-! # Requests to a linker

The requests that a linker answers, one by one and in sequence. Each one meets the linker that the
requests before it left.
-/

namespace NativeBridge.Linker

variable {W Q : Type} [Journal W]

def answer (host : Host W Q) (l : Linker) : Query → StateM W (Answer × Linker)
  | .openLibrary name? flags caller => do
    let (handle?, l) ← l.openLibrary host name? flags caller
    return (.ofValue? handle?, l)
  | .openExtended name flags info caller => do
    return (.ofValue? (← l.openExtended host name flags info caller), l)
  | .openVendor name flags caller => do
    return (.ofValue? (← l.openVendor host name flags caller), l)
  | .findSymbol handle name caller => l.findSymbol host handle name caller

inductive Request
  | query (q : Query)
  | setVulkanLoader (handle : UInt64)
  | setVulkanDriver (handle : UInt64)
  deriving DecidableEq, Repr

def perform (host : Host W Q) (l : Linker) : Request → StateM W (Answer × Linker)
  | .query q => l.answer host q
  | .setVulkanLoader handle => return (.nothing, { l with vulkanLoader := handle })
  | .setVulkanDriver handle => return (.nothing, { l with vulkanDriver := handle })

def performAll (host : Host W Q) (l : Linker) : List Request → StateM W (List Answer × Linker)
  | [] => return ([], l)
  | request :: others => do
    let (first, l) ← l.perform host request
    let (rest, l) ← l.performAll host others
    return (first :: rest, l)

end NativeBridge.Linker
