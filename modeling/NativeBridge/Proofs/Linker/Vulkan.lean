import Mathlib.Logic.Function.Basic
import NativeBridge.Proofs.Linker.Request

/-! # Vulkan handles of a linker

A linker holds the handles that it was told last. No query changes them.
-/

namespace NativeBridge

/-- What the host tells a handle of. -/
inductive Vulkan
  | loader
  | driver
  deriving DecidableEq, Repr

variable {W Q : Type}

namespace Linker

def vulkan (l : Linker) : Vulkan → UInt64
  | .loader => l.vulkanLoader
  | .driver => l.vulkanDriver

def Request.tell : Vulkan → UInt64 → Request
  | .loader, handle => .setVulkanLoader handle
  | .driver, handle => .setVulkanDriver handle

variable {host : Host W Q} {w : W} {l l' : Linker} {i : LibraryIndex} {lib : Library}
  {handle : UInt64} {calls : List (Call Q)}

theorem Made.vulkan_eq {sig : Signature} {function : UInt64} {made : Except LinkFault Place}
    (h : Made l i sig function (made, l') calls) : l'.vulkan = l.vulkan := by
  cases h with
  | placed => rfl
  | refused => rfl

theorem KnownOpened.vulkan_eq {name : String} {flags : Int32} {caller : UInt64}
    {answer : Option UInt64} (h : KnownOpened l lib name flags caller (answer, l') calls) :
    l'.vulkan = l.vulkan := by
  cases h with
  | repeated => rfl
  | bound => rfl
  | failed => rfl

theorem Opened.vulkan_eq {name? : Option RawName} {flags : Int32} {caller : UInt64}
    {answer : Option UInt64} (h : Opened l flags caller name? (answer, l') calls) :
    l'.vulkan = l.vulkan := by
  cases h with
  | program => rfl
  | known _ h => exact h.vulkan_eq
  | redirected => rfl
  | passed => rfl

variable [Journal W]

theorem FunctionBridged.vulkan_eq {symbol : String} {function : UInt64}
    {bridged : Except LinkFault Place}
    (h : FunctionBridged host.runtime w l i symbol function (bridged, l') calls) :
    l'.vulkan = l.vulkan := by
  cases h with
  | unresolved => rfl
  | undecoded => rfl
  | decoded _ _ _ h => exact h.vulkan_eq

theorem Bridged.vulkan_eq {symbol : String} {bridged : Except LinkFault (Option Place)}
    (h : Bridged host w l lib handle symbol (bridged, l') calls) : l'.vulkan = l.vulkan := by
  cases h with
  | audio _ h => exact h.vulkan_eq
  | unknown => rfl
  | function _ _ h => exact h.vulkan_eq

theorem Found.vulkan_eq {name : RawName} {caller : UInt64} {answer : Answer}
    (h : Found host w l handle name caller (answer, l') calls) : l'.vulkan = l.vulkan := by
  cases h with
  | passed => rfl
  | bridged _ h => exact h.vulkan_eq
  | unknown _ h => exact h.vulkan_eq
  | failed _ h => exact h.vulkan_eq

theorem Performed.vulkan_eq {q : Query} {answer : Answer}
    (h : Performed host w l (.query q) (answer, l') calls) : l'.vulkan = l.vulkan := by
  cases h with
  | opened h => exact h.vulkan_eq
  | openedExtended => rfl
  | openedVendor => rfl
  | found h => exact h.vulkan_eq

theorem vulkan_perform_query (host : Host W Q) (l : Linker) (q : Query) (w : W) :
    (l.perform host (.query q) w).1.2.vulkan = l.vulkan :=
  (perform_traced (.query q)).calls.vulkan_eq

theorem vulkan_perform_tell (host : Host W Q) (l : Linker) (part : Vulkan) (handle : UInt64)
    (w : W) :
    (l.perform host (.tell part handle) w).1.2.vulkan = Function.update l.vulkan part handle := by
  ext part'
  cases part <;> cases part' <;> rfl

end Linker

end NativeBridge
