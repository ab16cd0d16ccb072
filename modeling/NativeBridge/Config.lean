import NativeBridge.Json.Reader
import NativeBridge.Text.Count

/-! # Configuration

What the linker is told about native builds, the cache, the host's Vulkan libraries and the
vendor's namespaces, and what makes a configuration unusable.
-/

namespace NativeBridge

structure Config where
  /-- Where builds for the host's processor lie. -/
  nativeDirectory : String := "android/arm64-v8a"
  cacheCapacity : UInt64 := 32
  /-- The filename answered with the host's Vulkan loader. -/
  vulkanLoader : String := "libvulkan.so"
  /-- The part of a filename answered with the host's Vulkan driver. -/
  vulkanDriverFragment : String := "vulkan."
  /-- The namespaces tried for vendor libraries, in order. -/
  vendorNamespaces : List String := ["sphal", "vendor", "default"]
  deriving DecidableEq, Repr

/-- How the system reads the file at a path, or why it does not. -/
abbrev FileReader := String → Except String (List UInt8)

inductive ConfigFault
  | unreadable (path reason : String)
  | unparsable (path : String) (mishap : Json.Mishap)
  | badCount (key text : String) (fault : Text.CountFault)
  | zeroCapacity
  | emptyVulkanName
  | zeroPageSize
  | alreadyInstalled
  deriving DecidableEq, Repr

def ConfigFault.message : ConfigFault → String
  | unreadable path reason => s!"failed to read {path}: {reason}"
  | unparsable path mishap => s!"{path}: {mishap.message}"
  | badCount key text fault => s!"{key}={text}: {fault.message}"
  | zeroCapacity => "signature_cache_capacity must be at least 1"
  | emptyVulkanName => "vulkan loader name and driver fragment must not be empty"
  | zeroPageSize => "page size must be non-zero"
  | alreadyInstalled => "linker context is already installed"

/-- A usable configuration caches something and names the Vulkan libraries. -/
def Config.validate (c : Config) : Except ConfigFault Unit :=
  if c.cacheCapacity = 0 then .error .zeroCapacity
  else if c.vulkanLoader.isEmpty ∨ c.vulkanDriverFragment.isEmpty then .error .emptyVulkanName
  else .ok ()

end NativeBridge
